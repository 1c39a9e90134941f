import UbenchAgent.Stale

/-!
# What a reset leaves behind

`reset` only rewinds the index.  The PAPI event set keeps running if it was, and the slots
keep the return codes of `PAPI_start`.  So the calls after a `reset` report what they would
report on a new event set exactly if neither shows in them.
-/

namespace UbenchAgent

open RewindLog

/-- The return codes of `PAPI_start` and `PAPI_stop`, by whether the event set is running.
PAPI refuses to start a running event set and to stop an idle one, with different codes, and
stopping tells the two states apart. -/
structure PapiCodes where
  start : Bool → Int32
  stop : Bool → Int32
  start_running : start true ≠ papiOk
  stop_idle : stop false ≠ papiOk
  stop_differs : stop true ≠ stop false
  codes_differ : start true ≠ stop false

namespace PapiCodes

variable (codes : PapiCodes)

def runs (running : Bool) : CallKind → Bool
  | .start => running || codes.start running == papiOk
  | .stop => running && codes.stop running != papiOk
  | .sample _ => running
  | .reset => running

def answer (running : Bool) : SetCall → SetCall
  | .start r => .start { r with papiStart := codes.start running }
  | .stop r => .stop { r with papiStop := codes.stop running }
  | .sample userId r => .sample userId r
  | .reset => .reset

def answers : Bool → List SetCall → List SetCall
  | _, [] => []
  | running, call :: calls =>
    codes.answer running call :: answers (codes.runs running call.kind) calls

theorem answer_kind (running : Bool) (call : SetCall) :
    (codes.answer running call).kind = call.kind := by
  cases call <;> rfl

theorem answers_kind (running : Bool) (calls : List SetCall) :
    (codes.answers running calls).map SetCall.kind = calls.map SetCall.kind := by
  induction calls generalizing running with
  | nil => rfl
  | cons call calls ih => rw [answers, List.map_cons, List.map_cons, answer_kind, ih]

theorem answers_append (running : Bool) (xs ys : List SetCall) :
    codes.answers running (xs ++ ys) =
      codes.answers running xs ++ codes.answers ((xs.map SetCall.kind).foldl codes.runs running) ys := by
  induction xs generalizing running with
  | nil => rfl
  | cons x xs ih => rw [List.cons_append, answers, answers, ih, List.cons_append]; rfl

theorem answers_getElem? (running : Bool) (calls : List SetCall) (i : ℕ) :
    (codes.answers running calls)[i]? = calls[i]?.map
      (codes.answer (((calls.map SetCall.kind).take i).foldl codes.runs running)) := by
  induction calls generalizing running i with
  | nil => rfl
  | cons call calls ih =>
    cases i with
    | zero => rfl
    | succ i => rw [answers, List.getElem?_cons_succ, ih]; rfl

/-- Calls that neither start nor stop do not hear from PAPI. -/
theorem answers_of_quiet {calls : List SetCall}
    (h : ∀ call ∈ calls, call.kind ≠ .start ∧ call.kind ≠ .stop) (running : Bool) :
    codes.answers running calls = calls := by
  induction calls generalizing running with
  | nil => rfl
  | cons call calls ih =>
    have hcall := h call List.mem_cons_self
    rw [answers, ih fun call hmem => h call (List.mem_cons_of_mem _ hmem)]
    cases call with
    | start r => exact absurd rfl hcall.1
    | stop r => exact absurd rfl hcall.2
    | sample userId r => rfl
    | reset => rfl

theorem foldl_runs_quiet {kinds : List CallKind} (h : ∀ kind ∈ kinds, kind ≠ .start ∧ kind ≠ .stop)
    (running : Bool) : kinds.foldl codes.runs running = running := by
  induction kinds with
  | nil => rfl
  | cons kind kinds ih =>
    have hkind := h kind List.mem_cons_self
    rw [List.foldl_cons]
    cases kind with
    | start => exact absurd rfl hkind.1
    | stop => exact absurd rfl hkind.2
    | sample userId => exact ih fun kind hmem => h kind (List.mem_cons_of_mem _ hmem)
    | reset => exact ih fun kind hmem => h kind (List.mem_cons_of_mem _ hmem)

theorem start_of_running {kinds : List CallKind} {running : Bool}
    (hrunning : running = true → codes.start false = papiOk)
    (h : kinds.foldl codes.runs running = true) : codes.start false = papiOk := by
  induction kinds generalizing running with
  | nil => exact hrunning h
  | cons kind kinds ih =>
    refine ih (fun hnext => ?_) h
    cases kind with
    | start =>
      cases running with
      | true => exact hrunning rfl
      | false => simpa [runs] using hnext
    | stop =>
      cases running with
      | true => exact hrunning rfl
      | false => simp [runs] at hnext
    | sample userId => exact hrunning hnext
    | reset => exact hrunning hnext

end PapiCodes

def CallKind.call : CallKind → SetCall
  | .start => .start .zero
  | .stop => .stop .zero
  | .sample userId => .sample userId .zero
  | .reset => .reset

theorem call_kind (kind : CallKind) : kind.call.kind = kind := by
  cases kind <;> rfl

theorem map_call_kind (kinds : List CallKind) :
    (kinds.map CallKind.call).map SetCall.kind = kinds := by
  rw [List.map_map]
  exact (List.map_congr_left fun kind _ => call_kind kind).trans (List.map_id kinds)

/-- The codes of `PAPI_start` that calls of these kinds leave in the slots. -/
def PapiCodes.leftIn (codes : PapiCodes) (cap : ℕ) (kinds : List CallKind) : ℕ → Int32 :=
  rc2Run cap 0 (fun _ => 0) (codes.answers false (kinds.map CallKind.call))

theorem rc2Run_answers_congr (codes : PapiCodes) {cap n : ℕ} {running : Bool} {rc2 : ℕ → Int32}
    {calls calls' : List SetCall} (h : calls.map SetCall.kind = calls'.map SetCall.kind) :
    rc2Run cap n rc2 (codes.answers running calls) =
      rc2Run cap n rc2 (codes.answers running calls') := by
  induction calls generalizing n running rc2 calls' with
  | nil =>
    cases calls' with
    | nil => rfl
    | cons call' calls' => cases h
  | cons call calls ih =>
    cases calls' with
    | nil => cases h
    | cons call' calls' =>
      rw [List.map_cons, List.map_cons, List.cons.injEq] at h
      have hover : ∀ old, (codes.answer running call).rc2Over old =
          (codes.answer running call').rc2Over old := by
        have hkind := h.1
        intro old
        cases call <;> cases call' <;> first | rfl | cases hkind
      have hafter : (codes.answer running call).rc2After cap n rc2 =
          (codes.answer running call').rc2After cap n rc2 := by
        unfold SetCall.rc2After
        simp only [codes.answer_kind, h.1, hover]
      rw [PapiCodes.answers, PapiCodes.answers, rc2Run, rc2Run, hafter, codes.answer_kind,
        codes.answer_kind, h.1]
      exact ih h.2

theorem leftIn_eq (codes : PapiCodes) {cap : ℕ} {kinds : List CallKind} {calls : List SetCall}
    (h : calls.map SetCall.kind = kinds) :
    rc2Run cap 0 (fun _ => 0) (codes.answers false calls) = codes.leftIn cap kinds :=
  rc2Run_answers_congr codes (h.trans (map_call_kind kinds).symm)

theorem rc2Run_reset (cap n : ℕ) (rc2 : ℕ → Int32) (xs ys : List SetCall) :
    rc2Run cap n rc2 (xs ++ .reset :: ys) = rc2Run cap 0 (rc2Run cap n rc2 xs) ys := by
  induction xs generalizing n rc2 with
  | nil => rfl
  | cons x xs ih => rw [List.cons_append, rc2Run, rc2Run, ih]

theorem rc2Run_fits {cap k : ℕ} {calls : List SetCall} (hfit : k + calls.length ≤ cap)
    (hreset : ∀ call ∈ calls, call ≠ .reset) (rc2 : ℕ → Int32) :
    (∀ i, i < k → rc2Run cap k rc2 calls i = rc2 i) ∧
      ∀ j call, calls[j]? = some call → rc2Run cap k rc2 calls (k + j) = call.rc2Over (rc2 (k + j)) := by
  induction calls generalizing k rc2 with
  | nil => exact ⟨fun _ _ => rfl, fun j call h => by simp at h⟩
  | cons call calls ih =>
    rw [List.length_cons] at hfit
    have hslot : call.kind.slot cap k = some k := by
      have hne : call ≠ .reset := hreset call List.mem_cons_self
      have hk : k ≠ cap := by omega
      cases call with
      | start r => simp [SetCall.kind, CallKind.slot, hk]
      | stop r => rfl
      | sample userId r => simp [SetCall.kind, CallKind.slot, hk]
      | reset => exact absurd rfl hne
    have hnext : call.kind.next cap k = k + 1 := by rw [CallKind.next, hslot]
    have hafter : call.rc2After cap k rc2 = Function.update rc2 k (call.rc2Over (rc2 k)) := by
      rw [SetCall.rc2After, hslot]
    obtain ⟨hlow, hhigh⟩ := ih (k := k + 1) (by omega)
      (fun call hmem => hreset call (List.mem_cons_of_mem _ hmem))
      (Function.update rc2 k (call.rc2Over (rc2 k)))
    rw [rc2Run, hnext, hafter]
    refine ⟨fun i hi => ?_, fun j call' hj => ?_⟩
    · rw [hlow i (by omega), Function.update_of_ne (by omega)]
    · cases j with
      | zero =>
        rw [List.getElem?_cons_zero, Option.some.injEq] at hj
        simp only [Nat.add_zero]
        rw [hlow k (by omega), Function.update_self, hj]
      | succ j =>
        rw [List.getElem?_cons_succ] at hj
        have := hhigh j call' hj
        rw [Function.update_of_ne (by omega)] at this
        rwa [show k + 1 + j = k + (j + 1) by omega] at this

theorem rc2Run_answers_mem (codes : PapiCodes) {cap n : ℕ} {running : Bool} {rc2 : ℕ → Int32}
    {calls : List SetCall} {i : ℕ} :
    rc2Run cap n rc2 (codes.answers running calls) i = rc2 i ∨
      ∃ b, rc2Run cap n rc2 (codes.answers running calls) i = codes.start b := by
  induction calls generalizing n running rc2 with
  | nil => exact .inl rfl
  | cons call calls ih =>
    rw [PapiCodes.answers, rc2Run]
    have hafter : (codes.answer running call).rc2After cap n rc2 i = rc2 i ∨
        (codes.answer running call).rc2After cap n rc2 i = codes.start running := by
      unfold SetCall.rc2After
      cases (codes.answer running call).kind.slot cap n with
      | none => exact .inl rfl
      | some j =>
        dsimp only
        by_cases hij : i = j
        · subst hij
          rw [Function.update_self]
          cases call with
          | start r => exact .inr rfl
          | stop r => exact .inl rfl
          | sample userId r => exact .inl rfl
          | reset => exact .inl rfl
        · rw [Function.update_of_ne hij]
          exact .inl rfl
    refine ih.elim (fun h => ?_) .inr
    rw [h]
    exact hafter.imp id fun h => ⟨running, h⟩

section Runs

variable {hasPapi : Bool} {args : CreateArgs} {o : SetupOutcomes}
  {config config' : BenchmarkConfiguration} {calls l : List SetCall}

theorem Writes.results {rc2 : ℕ → Int32} (h : Writes config config' l rc2) :
    getResultsOf config' = .ok ⟨config.usedEvents.map (·.name),
        rowsOf config.usedEvents (l.mapIdx fun i call => call.written config (rc2 i))⟩ ∧
      getRawResultsOf config' = .ok ⟨config.usedEvents.map (·.name) ++ [some "TYPE"],
        (l.mapIdx fun i call => call.written config (rc2 i)).map
          (rawRowOf config.usedEvents)⟩ := by
  rw [getResultsOf_eq h.index_le, getRawResultsOf_eq h.index_le, rowsOf_congr h.served h.agree,
    rawRows_congr h.served h.agree, h.events]
  exact ⟨rfl, rfl⟩

theorem Created.writersOf_iff (h : Created hasPapi args o args.size config)
    (hmeas : 0 < args.jmeasurements * 2) (calls : List SetCall) :
    (∃ l, writersOf args.size calls = some l) ↔
      StopsHaveRoom args.size 0 (calls.map SetCall.kind) := by
  have hiff := foldlM_apply_ok_iff (h.logInv hmeas) calls
  rw [h.dataSize, h.dataIndex] at hiff
  rw [← hiff]
  constructor
  · rintro ⟨l, hl⟩
    obtain ⟨config', -, hrun, -⟩ := h.runs hmeas hl
    exact ⟨config', hrun⟩
  · rintro ⟨config', hrun⟩
    by_contra hnone
    have hlog : RewindLog.run config.dataSize [] ((calls.map fun call => (call, call)).map
        fun x => x.2.act x) = none := by
      have hmap := RewindLog.run_map args.size (fun call => (call, call)) []
        (calls.map fun call => call.act call)
      have hwriters : RewindLog.run args.size [] (calls.map fun call => call.act call) = none :=
        Option.eq_none_iff_forall_ne_some.mpr fun l hl => hnone ⟨l, hl⟩
      rw [hwriters, Option.map_none, List.map_nil] at hmap
      rw [h.dataSize, ← hmap, List.map_map, List.map_map]
      congr 1
      exact List.map_congr_left fun call _ => by cases call <;> rfl
    rcases Shows.run (h.logInv hmeas) (h.shows (L := SetCall))
        (calls.map fun call => (call, call)) with ⟨_, _, _, -, hsome, -⟩ | ⟨e, hperform, -⟩
    · rw [hlog] at hsome
      cases hsome
    · have hfold := foldlM_perform_fst (calls.map fun call => (call, call)) config
        (fun _ => (none : Option (SetCall × SetCall)))
      have hsnd : (calls.map fun call => (call, call)).map Prod.snd = calls := by
        rw [List.map_map]
        exact List.map_id calls
      rw [hperform, hsnd, hrun] at hfold
      cases hfold

theorem StopsHaveRoom.of_append {cap n : ℕ} {xs ys : List CallKind}
    (h : StopsHaveRoom cap n (xs ++ ys)) : StopsHaveRoom cap n xs := by
  induction xs generalizing n with
  | nil => trivial
  | cons x xs ih =>
    rw [List.cons_append, StopsHaveRoom] at h
    exact ⟨h.1, ih h.2⟩

theorem writersOf_reset {cap : ℕ} {before after l : List SetCall}
    (hbefore : writersOf cap before = some l) (hreset : ∀ call ∈ after, call ≠ .reset)
    (hfit : after.length ≤ cap) : writersOf cap (before ++ .reset :: after) = some after := by
  rw [writersOf] at hbefore ⊢
  rw [List.map_append, RewindLog.run_append, hbefore, Option.bind_some, List.map_cons,
    RewindLog.run_cons]
  refine RewindLog.run_of_fits (l := []) ?_ (by simpa using hfit)
  refine List.forall₂_map_left_iff.mpr (List.forall₂_same.mpr fun call hmem => ?_)
  cases call with
  | start r => exact .inl rfl
  | stop r => exact .inr rfl
  | sample userId r => exact .inl rfl
  | reset => exact absurd rfl (hreset _ hmem)

theorem writersOf_fits {cap : ℕ} {after : List SetCall} (hreset : ∀ call ∈ after, call ≠ .reset)
    (hfit : after.length ≤ cap) : writersOf cap after = some after := by
  have h : writersOf cap ([] ++ .reset :: after) = some after := writersOf_reset rfl hreset hfit
  exact h

theorem papiEvents_zero {kind : CallKind} {codes : PapiCodes} {running : Bool}
    (hkind : kind ≠ .reset) (hu : config.uses backendPapi = true) (rc2 : Int32)
    (i : Fin ubenchMaxPapiEvents) :
    ((codes.answer running kind.call).written config rc2).papiEvents i = 0 := by
  have hstore : ∀ (n : ℕ) (rc : Int32) (old : PapiValues), old i = 0 →
      storePapiValues n rc Reading.zero.papiValues old i = 0 := by
    intro n rc old hold
    unfold storePapiValues
    split_ifs
    · rfl
    · exact hold
  cases kind with
  | start =>
    refine (congrFun ((doSnapshot_papiEvents config _ _).trans (if_pos hu)) i).trans
      (hstore _ _ _ ?_)
    rw [if_pos hu]
    rfl
  | stop =>
    exact (congrFun ((ubenchMeasureStop_papiEvents config _ _).trans (if_pos hu)) i).trans
      (hstore _ _ _ rfl)
  | sample userId =>
    exact (congrFun ((doSnapshot_papiEvents config _ _).trans (if_pos hu)) i).trans
      (hstore _ _ _ rfl)
  | reset => exact absurd rfl hkind

/-- The value of a PAPI event in a slot whose writer read zeros: the first code that is not OK. -/
theorem callGetRaw_zero {event : EventInfo} (hserved : Served config event .papi) {call : SetCall}
    {kind : CallKind} {codes : PapiCodes} {running : Bool} (hkind : kind ≠ .reset)
    (hcall : call = codes.answer running kind.call) (rc2 : Int32) :
    event.callGetRaw (call.written config rc2) =
      (if call.papiRc1 ≠ papiOk then call.papiRc1 else rc2).toInt64 := by
  have hreset : call ≠ .reset := by
    rw [hcall]
    cases kind <;> simp [CallKind.call, PapiCodes.answer] at hkind ⊢
  have hvalues : ∀ i, (call.written config rc2).papiEvents i = 0 := fun i => by
    rw [hcall]
    exact papiEvents_zero hkind hserved.uses rc2 i
  rw [EventInfo.callGetRaw, hserved.opGetRaw]
  dsimp only [EventGetterFunc.raw]
  rw [getterRawPapi, written_papiRc1 hreset hserved.uses, hvalues]
  change (if _ then _ else if rc2 ≠ papiOk then rc2.toInt64 else 0) = _
  split_ifs with h₁ h₂
  · rfl
  · rfl
  · rw [not_not.mp h₂]
    rfl

theorem Writes.results_congr {config₁ config₂ : BenchmarkConfiguration} {l₁ l₂ : List SetCall}
    {rc2₁ rc2₂ : ℕ → Int32} (h₁ : Writes config config₁ l₁ rc2₁) (h₂ : Writes config config₂ l₂ rc2₂)
    (hserved : EventsServed config)
    (hagree : List.Forall₂ (AgreeOn config) (l₁.mapIdx fun i call => call.written config (rc2₁ i))
      (l₂.mapIdx fun i call => call.written config (rc2₂ i))) :
    getResultsOf config₁ = getResultsOf config₂ ∧
      getRawResultsOf config₁ = getRawResultsOf config₂ := by
  obtain ⟨hres₁, hraw₁⟩ := h₁.results
  obtain ⟨hres₂, hraw₂⟩ := h₂.results
  rw [hres₁, hres₂, hraw₁, hraw₂, rowsOf_congr hserved hagree, rawRows_congr hserved hagree]
  exact ⟨rfl, rfl⟩

theorem Writes.of_view {config₁ : BenchmarkConfiguration} {rc2 : ℕ → Int32}
    (h : Writes config config₁ l rc2) (hview : config'.view = config.view) :
    Writes config' config₁ l rc2 := by
  obtain ⟨used, owned, rfl⟩ := exists_of_view_eq hview
  exact ⟨h.events, h.served, h.agree, h.index_le, h.writes⟩

theorem written_answer (codes : PapiCodes) (hno : ¬ config.uses backendPapi = true)
    (running : Bool) (call : SetCall) (rc2 : Int32) :
    (codes.answer running call).written config rc2 = call.written config rc2 := by
  cases call with
  | start r =>
    simp only [SetCall.written, SetCall.fill, PapiCodes.answer, ubenchMeasureStart, doSnapshot,
      if_neg hno]
  | stop r =>
    simp only [SetCall.written, SetCall.fill, PapiCodes.answer, ubenchMeasureStop, if_neg hno]
  | sample userId r => rfl
  | reset => rfl

theorem map_written_answers (codes : PapiCodes) (hno : ¬ config.uses backendPapi = true)
    (running : Bool) (calls : List SetCall) (rc2 : ℕ → Int32) :
    (codes.answers running calls).mapIdx (fun i call => call.written config (rc2 i)) =
      calls.mapIdx fun i call => call.written config (rc2 i) := by
  refine List.ext_getElem? fun i => ?_
  rw [List.getElem?_mapIdx, List.getElem?_mapIdx, codes.answers_getElem?, Option.map_map]
  exact Option.map_congr fun call _ => written_answer codes hno _ call _

end Runs

/-- After calls of the kinds `pre`, a `reset` and calls of the kinds `post`, the event set
`id` of `a` has the results that `id'` of `a'` has after the latter only, whatever the calls
read; PAPI answers with `codes`. -/
def ResetRestores (hasPapi : Bool) (codes : PapiCodes) (a a' : Agent) (id id' : ℤ)
    (pre post : List CallKind) : Prop :=
  ∀ before after : List SetCall, before.map SetCall.kind = pre → after.map SetCall.kind = post →
    ∃ config config',
      RunsTo hasPapi a id (codes.answers false (before ++ .reset :: after)) config ∧
      RunsTo hasPapi a' id' (codes.answers false after) config' ∧
      getResultsOf config = getResultsOf config' ∧
      getRawResultsOf config = getRawResultsOf config'

/-- Calls of the kinds `pre` leave nothing that calls of the kinds `post` report: the PAPI
event set is not running, unless it is neither started nor stopped again, and no `start` that
failed wrote the slot of a `sample` or of a `stop` that succeeds. -/
structure NothingLeft (codes : PapiCodes) (cap : ℕ) (pre post : List CallKind) : Prop where
  idle : pre.foldl codes.runs false = true → ∀ kind ∈ post, kind ≠ .start ∧ kind ≠ .stop
  clean : ∀ i kind, post[i]? = some kind → kind ≠ .start →
    (kind = .stop → codes.stop ((post.take i).foldl codes.runs false) = papiOk) →
    codes.leftIn cap pre i = papiOk

section Reset

variable {hasPapi : Bool} {codes : PapiCodes} {a a' : Agent} {id id' : ℤ} {args : CreateArgs}
  {o o' : SetupOutcomes} {config config' : BenchmarkConfiguration} {pre post : List CallKind}

theorem NothingLeft.answers {cap : ℕ} (h : NothingLeft codes cap pre post) {after : List SetCall}
    (hafter : after.map SetCall.kind = post) :
    codes.answers (pre.foldl codes.runs false) after = codes.answers false after := by
  cases hrunning : pre.foldl codes.runs false with
  | false => rfl
  | true =>
    have hquiet : ∀ call ∈ after, call.kind ≠ .start ∧ call.kind ≠ .stop := fun call hmem =>
      h.idle hrunning call.kind (hafter ▸ List.mem_map_of_mem hmem)
    rw [codes.answers_of_quiet hquiet, codes.answers_of_quiet hquiet]

variable (codes) in
theorem answers_fit {cap : ℕ} (hpost : CallKind.reset ∉ post) (hfit : post.length ≤ cap)
    {after : List SetCall} (hafter : after.map SetCall.kind = post) (running : Bool) :
    (∀ call ∈ codes.answers running after, call ≠ .reset) ∧
      (codes.answers running after).length ≤ cap := by
  have hkinds := codes.answers_kind running after
  refine ⟨?_, ?_⟩
  · rintro call hmem rfl
    refine hpost (hafter ▸ hkinds ▸ ?_)
    exact List.mem_map_of_mem hmem
  · rw [← List.length_map SetCall.kind, hkinds, hafter]
    exact hfit

variable (codes) in
theorem Created.resetRuns (h : Created hasPapi args o args.size config)
    (h' : Created hasPapi args o' args.size config') (hview : config.view = config'.view)
    (hmeas : 0 < args.jmeasurements * 2) (hc : a.validConfig id = some config)
    (hc' : a'.validConfig id' = some config') (hpost : CallKind.reset ∉ post)
    (hfit : post.length ≤ args.size) (hroom : StopsHaveRoom args.size 0 pre)
    {before after : List SetCall} (hbefore : before.map SetCall.kind = pre)
    (hafter : after.map SetCall.kind = post) :
    ∃ config₁ config₂,
      RunsTo hasPapi a id (codes.answers false (before ++ .reset :: after)) config₁ ∧
      RunsTo hasPapi a' id' (codes.answers false after) config₂ ∧
      Writes config config₁ (codes.answers (pre.foldl codes.runs false) after)
        (rc2Run args.size 0 (codes.leftIn args.size pre)
          (codes.answers (pre.foldl codes.runs false) after)) ∧
      Writes config config₂ (codes.answers false after)
        (rc2Run args.size 0 (fun _ => 0) (codes.answers false after)) := by
  have hsplit : codes.answers false (before ++ .reset :: after) = codes.answers false before ++
      .reset :: codes.answers (pre.foldl codes.runs false) after := by
    rw [codes.answers_append, hbefore]
    rfl
  obtain ⟨l, hl⟩ := (h.writersOf_iff hmeas (codes.answers false before)).mpr
    (by rw [codes.answers_kind, hbefore]; exact hroom)
  obtain ⟨hreset₁, hfit₁⟩ := answers_fit codes hpost hfit hafter
    (pre.foldl codes.runs false)
  obtain ⟨hreset₂, hfit₂⟩ := answers_fit codes hpost hfit hafter false
  obtain ⟨config₁, hrun₁, hw₁⟩ := h.writes hmeas (writersOf_reset hl hreset₁ hfit₁)
  obtain ⟨config₂, hrun₂, hw₂⟩ := h'.writes hmeas (writersOf_fits hreset₂ hfit₂)
  rw [rc2Run_reset, leftIn_eq codes hbefore] at hw₁
  exact ⟨config₁, config₂, (runsTo_iff hc _).mpr (hsplit ▸ hrun₁), (runsTo_iff hc' _).mpr hrun₂,
    hw₁, hw₂.of_view hview⟩

/-- If nothing is left, the results are those of a new event set. -/
theorem Created.resetRestores (h : Created hasPapi args o args.size config)
    (h' : Created hasPapi args o' args.size config') (hview : config.view = config'.view)
    (hmeas : 0 < args.jmeasurements * 2) (hc : a.validConfig id = some config)
    (hc' : a'.validConfig id' = some config') (hpost : CallKind.reset ∉ post)
    (hfit : post.length ≤ args.size) (hroom : StopsHaveRoom args.size 0 pre)
    (hleft : config.uses backendPapi = true → NothingLeft codes args.size pre post) :
    ResetRestores hasPapi codes a a' id id' pre post := by
  intro before after hbefore hafter
  obtain ⟨config₁, config₂, hruns₁, hruns₂, hw₁, hw₂⟩ :=
    h.resetRuns codes h' hview hmeas hc hc' hpost hfit hroom hbefore hafter
  refine ⟨config₁, config₂, hruns₁, hruns₂, hw₁.results_congr hw₂ h.loop.served ?_⟩
  by_cases hu : config.uses backendPapi = true
  · have hnothing := hleft hu
    rw [hnothing.answers hafter]
    obtain ⟨hreset, hfits⟩ := answers_fit codes hpost hfit hafter false
    have hcode := fun rc2 => (rc2Run_fits (k := 0) (by simpa using hfits) hreset rc2).2
    refine List.forall₂_iff_get.mpr ⟨by simp, fun i hi hi' => ?_⟩
    rw [List.length_mapIdx] at hi
    simp only [List.get_eq_getElem, List.getElem_mapIdx]
    have hget : (codes.answers false after)[i]? = some (codes.answers false after)[i] :=
      List.getElem?_eq_getElem hi
    have h₁ := hcode (codes.leftIn args.size pre) i _ hget
    have h₂ := hcode (fun _ => 0) i _ hget
    rw [Nat.zero_add] at h₁ h₂
    rw [h₁, h₂]
    refine agreeOn_written (hreset _ (List.getElem_mem hi)) fun _ hrc => ?_
    -- The call at `i` and its kind.
    rw [codes.answers_getElem?, Option.map_eq_some_iff] at hget
    obtain ⟨call, hcall, hanswer⟩ := hget
    have hkind : post[i]? = some call.kind := by rw [← hafter, List.getElem?_map, hcall]; rfl
    rw [← hanswer] at hrc ⊢
    rw [hafter] at hrc
    have hclean := hnothing.clean i call.kind hkind
    cases call with
    | start r => rfl
    | stop r => exact hclean (by simp [SetCall.kind]) fun _ => hrc
    | sample userId r => exact hclean (by simp [SetCall.kind]) fun hstop => by cases hstop
    | reset => exact absurd (List.mem_of_getElem? hkind) hpost
  · rw [map_written_answers codes hu, map_written_answers codes hu]
    refine List.forall₂_iff_get.mpr ⟨by simp, fun i hi hi' => ?_⟩
    rw [List.length_mapIdx] at hi
    simp only [List.get_eq_getElem, List.getElem_mapIdx]
    refine agreeOn_written (fun hreset => ?_) fun hu' => absurd hu' hu
    refine hpost (hafter ▸ ?_)
    have hmem := List.mem_map_of_mem (f := SetCall.kind) (List.getElem_mem hi)
    rwa [hreset] at hmem

/-- The code that a slot shows of a call: that of its own PAPI call unless it succeeded, or
else the one that is left. -/
def SetCall.shown (left : Int32) (call : SetCall) : Int32 :=
  if call.papiRc1 ≠ papiOk then call.papiRc1 else call.rc2Over left

variable (codes) in
/-- If the results are those of a new event set, the calls that read zeros show the same
codes in both. -/
theorem Created.shown_eq (h : Created hasPapi args o args.size config)
    (h' : Created hasPapi args o' args.size config') (hview : config.view = config'.view)
    (hmeas : 0 < args.jmeasurements * 2) (hc : a.validConfig id = some config)
    (hc' : a'.validConfig id' = some config') (hpost : CallKind.reset ∉ post)
    (hfit : post.length ≤ args.size) (hroom : StopsHaveRoom args.size 0 pre)
    (hu : config.uses backendPapi = true)
    (hrestores : ResetRestores hasPapi codes a a' id id' pre post) {i : ℕ} {kind : CallKind}
    (hi : post[i]? = some kind) :
    (codes.answer ((post.take i).foldl codes.runs (pre.foldl codes.runs false)) kind.call).shown
        (codes.leftIn args.size pre i) =
      (codes.answer ((post.take i).foldl codes.runs false) kind.call).shown 0 := by
  obtain ⟨event, hmem, hget⟩ := h.loop.used hu
  obtain ⟨getter, hserved⟩ := h.loop.served event hmem
  obtain rfl : getter = .papi := Option.some.inj (hserved.opGet.symm.trans hget)
  have hbefore := map_call_kind pre
  have hafter := map_call_kind post
  obtain ⟨config₁, config₂, hruns₁, hruns₂, hw₁, hw₂⟩ :=
    h.resetRuns codes h' hview hmeas hc hc' hpost hfit hroom hbefore hafter
  obtain ⟨config₃, config₄, hruns₃, hruns₄, -, hraw⟩ := hrestores _ _ hbefore hafter
  obtain rfl := hruns₁.unique hc hruns₃
  obtain rfl := hruns₂.unique hc' hruns₄
  -- The value of the PAPI event in row `i` of a run in which PAPI ran or not, and left codes.
  have hkind : kind ≠ .reset := fun hreset => hpost (hreset ▸ List.mem_of_getElem? hi)
  have hrow : ∀ (running : Bool) (left : ℕ → Int32),
      (((codes.answers running (post.map CallKind.call)).mapIdx fun i call => call.written config
        (rc2Run args.size 0 left (codes.answers running (post.map CallKind.call)) i)).map
          (rawRowOf config.usedEvents))[i]? = some (rawRowOf config.usedEvents
            ((codes.answer ((post.take i).foldl codes.runs running) kind.call).written config
              ((codes.answer ((post.take i).foldl codes.runs running) kind.call).rc2Over
                (left i)))) := by
    intro running left
    obtain ⟨hreset, hfits⟩ := answers_fit codes hpost hfit hafter running
    have hanswer : (codes.answers running (post.map CallKind.call))[i]? =
        some (codes.answer ((post.take i).foldl codes.runs running) kind.call) := by
      rw [codes.answers_getElem?, hafter, List.getElem?_map, hi]
      rfl
    have hcode := (rc2Run_fits (k := 0) (by simpa using hfits) hreset left).2 i _ hanswer
    rw [Nat.zero_add] at hcode
    rw [List.getElem?_map, List.getElem?_mapIdx, hanswer, Option.map_some, Option.map_some, hcode]
  have hsame := hw₁.results.2.symm.trans (hraw.trans hw₂.results.2)
  simp only [Except.ok.injEq, BenchmarkResults.mk.injEq, true_and] at hsame
  have hrows := congrArg (fun rows => rows[i]?) hsame
  rw [hrow, hrow, Option.some.injEq] at hrows
  have hvalues := callGetRaw_of_rawRowOf hrows hmem
  rw [callGetRaw_zero hserved hkind rfl, callGetRaw_zero hserved hkind rfl] at hvalues
  have hcodes := congrArg Int64.toInt32 hvalues
  rwa [Int32.toInt32_toInt64, Int32.toInt32_toInt64] at hcodes

theorem shown_ne (codes : PapiCodes) {kind : CallKind} (hkind : kind = .start ∨ kind = .stop)
    (hstart : codes.start false = papiOk) {left : Int32}
    (hleft : left = 0 ∨ ∃ b, left = codes.start b) :
    (codes.answer true kind.call).shown left ≠ (codes.answer false kind.call).shown 0 := by
  rcases hkind with rfl | rfl
  · change codes.start true ≠ codes.start false
    rw [hstart]
    exact codes.start_running
  · change (if codes.stop true ≠ papiOk then codes.stop true else left) ≠
      if codes.stop false ≠ papiOk then codes.stop false else 0
    rw [if_pos codes.stop_idle]
    split_ifs
    · exact codes.stop_differs
    · rcases hleft with rfl | ⟨b, rfl⟩
      · exact codes.stop_idle.symm
      · cases b with
        | false => rw [hstart]; exact codes.stop_idle.symm
        | true => exact codes.codes_differ

/-- If the results are always those of a new event set, nothing is left. -/
theorem Created.nothingLeft (h : Created hasPapi args o args.size config)
    (h' : Created hasPapi args o' args.size config') (hview : config.view = config'.view)
    (hmeas : 0 < args.jmeasurements * 2) (hc : a.validConfig id = some config)
    (hc' : a'.validConfig id' = some config') (hpost : CallKind.reset ∉ post)
    (hfit : post.length ≤ args.size) (hroom : StopsHaveRoom args.size 0 pre)
    (hu : config.uses backendPapi = true)
    (hrestores : ResetRestores hasPapi codes a a' id id' pre post) :
    NothingLeft codes args.size pre post := by
  have hshown := fun {i : ℕ} {kind : CallKind} (hi : post[i]? = some kind) =>
    h.shown_eq codes h' hview hmeas hc hc' hpost hfit hroom hu hrestores hi
  have hidle : pre.foldl codes.runs false = true →
      ∀ kind ∈ post, kind ≠ .start ∧ kind ≠ .stop := by
    intro hrunning
    by_contra hloud
    -- The first call that starts or stops comes after samples only.
    have hexists : ∃ kind ∈ post, (kind == .start || kind == .stop) = true := by
      simp only [not_forall] at hloud
      obtain ⟨kind, hmem, hkind⟩ := hloud
      refine ⟨kind, hmem, ?_⟩
      rw [Bool.or_eq_true, beq_iff_eq, beq_iff_eq]
      exact (not_and_or.mp hkind).imp not_not.mp not_not.mp
    have hlt := List.findIdx_lt_length_of_exists hexists
    have hfirst := List.findIdx_getElem (w := hlt)
    rw [Bool.or_eq_true, beq_iff_eq, beq_iff_eq] at hfirst
    have hquiet : ∀ kind ∈ post.take (post.findIdx fun kind => kind == .start || kind == .stop),
        kind ≠ .start ∧ kind ≠ .stop := by
      intro kind hmem
      obtain ⟨j, hj, rfl⟩ := List.mem_take_iff_getElem.mp hmem
      have hnot := List.not_of_lt_findIdx (lt_of_lt_of_le hj (min_le_left _ _))
      simpa using hnot
    have hsame := hshown (List.getElem?_eq_getElem hlt)
    rw [codes.foldl_runs_quiet hquiet, codes.foldl_runs_quiet hquiet, hrunning] at hsame
    exact shown_ne codes hfirst (codes.start_of_running (fun h => by cases h) hrunning)
      (rc2Run_answers_mem codes) hsame
  refine ⟨hidle, fun i kind hi hstart hstop => ?_⟩
  have hsame := hshown hi
  cases kind with
  | start => exact absurd rfl hstart
  | stop =>
    have hrunning : pre.foldl codes.runs false = false := by
      rw [← Bool.not_eq_true]
      exact fun hr => (hidle hr .stop (List.mem_of_getElem? hi)).2 rfl
    have hok := hstop rfl
    rw [hrunning] at hsame
    have hrc : (codes.answer ((post.take i).foldl codes.runs false)
        (CallKind.call .stop)).papiRc1 = papiOk := hok
    rw [SetCall.shown, SetCall.shown, if_neg (not_not.mpr hrc), if_neg (not_not.mpr hrc)] at hsame
    exact hsame
  | sample userId => exact hsame
  | reset => exact absurd (List.mem_of_getElem? hi) hpost

end Reset

/-- The calls that fit after a `reset` have the results that they have on a new event set of
the same parameters, for all that they and earlier calls read, exactly if the earlier calls
stay in bounds and, where a PAPI event is used, leave nothing. -/
theorem createEventSet_resetRestores_iff {hasPapi : Bool} (codes : PapiCodes)
    {a₀ a a₀' a' : Agent} {id id' : ℤ} {args : CreateArgs} {o o' : CreateOutcomes}
    (hcreate : createEventSet hasPapi a₀ args o = (a, .ok id))
    (hcreate' : createEventSet hasPapi a₀' args o' = (a', .ok id'))
    (hsetup : o.toSetupOutcomes = o'.toSetupOutcomes) {pre post : List CallKind}
    (hpost : CallKind.reset ∉ post) (hfit : post.length ≤ args.size) :
    ResetRestores hasPapi codes a a' id id' pre post ↔
      StopsHaveRoom args.size 0 pre ∧
        ((∃ name ∈ args.jeventNames, isPapiName hasPapi o.papi name = true) →
          NothingLeft codes args.size pre post) := by
  obtain ⟨hacc, -, config, hc, hcreated, -⟩ := createEventSet_created hcreate
  obtain ⟨-, -, config', hc', hcreated', -⟩ := createEventSet_created hcreate'
  have hview := createEventSet_view hcreate hcreate' hsetup hc hc'
  have hmeas := hacc.measurements
  rw [← hcreated.loop.uses]
  constructor
  · intro h
    have hroom : StopsHaveRoom args.size 0 pre := by
      obtain ⟨config₁, -, hruns, -⟩ := h _ _ (map_call_kind pre) (map_call_kind post)
      have hfold := (foldlM_apply_ok_iff (hcreated.logInv hmeas) _).mp
        ⟨_, (runsTo_iff hc _).mp hruns⟩
      rw [hcreated.dataSize, hcreated.dataIndex, codes.answers_kind, List.map_append,
        map_call_kind] at hfold
      exact hfold.of_append
    exact ⟨hroom, fun hu =>
      hcreated.nothingLeft hcreated' hview hmeas hc hc' hpost hfit hroom hu h⟩
  · rintro ⟨hroom, hleft⟩
    exact hcreated.resetRestores hcreated' hview hmeas hc hc' hpost hfit hroom hleft

def PapiCodes.papi : PapiCodes where
  start running := if running then -10 else papiOk
  stop running := if running then papiOk else -9
  start_running := by decide
  stop_idle := by decide
  stop_differs := by decide
  codes_differ := by decide

/-- After `start` and `reset` another `start` finds the PAPI event set running. -/
theorem not_resetRestores_start :
    ∃ a, createEventSet true .initial .instructions .success = (a, .ok 0) ∧
      ¬ ResetRestores true .papi a a 0 0 [.start] [.start] := by
  have hcreate := createEventSet_eq (accepted_instructions .initial)
  obtain ⟨hacc, -, config, hc, hcreated, -⟩ := createEventSet_created hcreate
  refine ⟨_, hcreate, fun hrestores => ?_⟩
  have hleft := hcreated.nothingLeft hcreated rfl hacc.measurements hc hc (by decide) (by decide)
    (by decide) (hcreated.loop.uses.mpr isPapiName_instructions) hrestores
  exact (hleft.idle rfl .start List.mem_cons_self).1 rfl

/-- After a whole measurement a `reset` is as good as a new event set. -/
theorem resetRestores_measurement :
    ResetRestores true .papi (createEventSet true .initial .instructions .success).1
      (createEventSet true .initial .instructions .success).1 0 0 [.start, .stop]
      [.start, .stop] := by
  have hcreate := createEventSet_eq (accepted_instructions .initial)
  refine (createEventSet_resetRestores_iff .papi hcreate hcreate rfl (by decide) (by decide)).mpr
    ⟨by decide, fun _ => ⟨fun hrunning => absurd hrunning (by decide), ?_⟩⟩
  intro i kind hi hstart _
  match i with
  | 0 => exact absurd (Option.some.inj hi).symm hstart
  | 1 => rfl
  | i + 2 => cases hi

end UbenchAgent
