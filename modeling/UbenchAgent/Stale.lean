import UbenchAgent.Table

/-!
# What a reused slot remembers

After a `reset`, and after the step back at capacity, snapshots are written over earlier
ones.  A call overwrites every field that the results read but one: only `start` stores
the return code of `PAPI_start`, and both getters of a PAPI event read it.  So a slot
reports the code of an overwritten `start` exactly if it was written last by a `stop` or a
`sample` whose own PAPI call succeeded.
-/

namespace UbenchAgent

open RewindLog

/-- The calls on the event set `id` of `a` succeed and leave it with this configuration. -/
def RunsTo (hasPapi : Bool) (a : Agent) (id : ℤ) (calls : List SetCall)
    (config : BenchmarkConfiguration) : Prop :=
  ∃ a' tr, UbenchAgent.run (Agent.step hasPapi) a (calls.map (SetCall.on id)) = .ok (a', tr) ∧
    a'.validConfig id = some config

theorem runsTo_iff {hasPapi : Bool} {a : Agent} {id : ℤ} {config config' : BenchmarkConfiguration}
    (hc : a.validConfig id = some config) (calls : List SetCall) :
    RunsTo hasPapi a id calls config' ↔ calls.foldlM SetCall.apply config = .ok config' := by
  rcases run_on hasPapi hc calls with ⟨config₁, a', tr, hfold, hrun, hc'⟩ | ⟨f, hfold, hrun⟩
  · constructor
    · rintro ⟨a₂, tr₂, hrun₂, hc₂⟩
      obtain ⟨rfl, rfl⟩ : a' = a₂ ∧ tr = tr₂ := by
        have := hrun.symm.trans hrun₂
        simpa using this
      rw [hfold, Option.some.inj (hc'.symm.trans hc₂)]
    · intro h
      obtain rfl : config₁ = config' := by
        rw [hfold] at h
        simpa using h
      exact ⟨a', tr, hrun, hc'⟩
  · constructor
    · rintro ⟨a₂, tr₂, hrun₂, -⟩
      rw [hrun] at hrun₂
      cases hrun₂
    · intro h
      rw [hfold] at h
      cases h

theorem RunsTo.unique {hasPapi : Bool} {a : Agent} {id : ℤ}
    {config config₁ config₂ : BenchmarkConfiguration} {calls : List SetCall}
    (h₁ : RunsTo hasPapi a id calls config₁) (hc : a.validConfig id = some config)
    (h₂ : RunsTo hasPapi a id calls config₂) : config₁ = config₂ := by
  have hfold := ((runsTo_iff hc calls).mp h₁).symm.trans ((runsTo_iff hc calls).mp h₂)
  exact Except.ok.inj hfold

/-- The calls that wrote the visible snapshots of an array of `cap`; none if a `stop` has no
room. -/
def writersOf (cap : ℕ) (calls : List SetCall) : Option (List SetCall) :=
  RewindLog.run cap [] (calls.map fun call => call.act call)

/-- Some `start` of the list, which begins at index `n`, writes slot `i`. -/
def StartWrote (cap i : ℕ) : ℕ → List CallKind → Prop
  | _, [] => False
  | n, kind :: kinds =>
    (kind = .start ∧ kind.slot cap n = some i) ∨ StartWrote cap i (kind.next cap n) kinds

instance StartWrote.decidable (cap i : ℕ) :
    ∀ (n : ℕ) (kinds : List CallKind), Decidable (StartWrote cap i n kinds)
  | _, [] => .isFalse not_false
  | n, kind :: kinds =>
    have := StartWrote.decidable cap i (kind.next cap n) kinds
    inferInstanceAs (Decidable ((kind = .start ∧ kind.slot cap n = some i) ∨ _))

def SetCall.papiRc1 : SetCall → Int32
  | .start r => r.papiRead
  | .stop r => r.papiStop
  | .sample _ r => r.papiRead
  | .reset => 0

theorem step_act {cap : ℕ} {l l' : List SetCall} (hl : l.length ≤ cap) {call : SetCall}
    (h : RewindLog.step cap l (call.act call) = some l') :
    (call.kind.slot cap l.length = none ∧ l' = [] ∧ call.kind.next cap l.length = 0) ∨
      ∃ i, call.kind.slot cap l.length = some i ∧ i ≤ l.length ∧ l' = l.take i ++ [call] ∧
        call.kind.next cap l.length = l'.length := by
  have hover : ∀ i, i ≤ l.length → call.kind.slot cap l.length = some i →
      l' = l.take i ++ [call] → call.kind.next cap l.length = l'.length := by
    intro i hi hslot hl'
    rw [CallKind.next, hslot, hl', List.length_append, List.length_take, min_eq_left hi]
    rfl
  have hretract : retract cap l = l.take (if l.length = cap then cap - 2 else l.length) := by
    split_ifs with hfull
    · exact retract_full hfull
    · rw [retract_of_lt (by omega), List.take_length]
  have hle : (if l.length = cap then cap - 2 else l.length) ≤ l.length := by
    split_ifs <;> omega
  cases call with
  | start r =>
    have hl' : l' = l.take _ ++ [.start r] := hretract ▸ (Option.some.inj h).symm
    exact .inr ⟨_, rfl, hle, hl', hover _ hle rfl hl'⟩
  | sample userId r =>
    have hl' : l' = l.take _ ++ [.sample userId r] := hretract ▸ (Option.some.inj h).symm
    exact .inr ⟨_, rfl, hle, hl', hover _ hle rfl hl'⟩
  | stop r =>
    simp only [SetCall.act, RewindLog.step, Option.ite_none_right_eq_some, Option.some.injEq] at h
    have hl' : l' = l.take l.length ++ [.stop r] := by rw [List.take_length, h.2]
    exact .inr ⟨l.length, rfl, le_rfl, hl', hover _ le_rfl rfl hl'⟩
  | reset => exact .inl ⟨rfl, (Option.some.inj h).symm, rfl⟩

theorem rc2Run_start {cap : ℕ} (hcap : 2 ≤ cap) {calls : List SetCall} {l l' : List SetCall}
    {rc2 : ℕ → Int32} (hl : l.length ≤ cap)
    (hstart : ∀ i r, l[i]? = some (.start r) → rc2 i = r.papiStart)
    (h : RewindLog.run cap l (calls.map fun call => call.act call) = some l') {i : ℕ} {r : Reading}
    (hi : l'[i]? = some (.start r)) : rc2Run cap l.length rc2 calls i = r.papiStart := by
  induction calls generalizing l rc2 with
  | nil =>
    obtain rfl : l = l' := by simpa using h
    exact hstart i r hi
  | cons call calls ih =>
    rw [List.map_cons, RewindLog.run_cons, Option.bind_eq_some_iff] at h
    obtain ⟨l₁, hstep, hrun⟩ := h
    have hl₁ := length_step hcap hl hstep
    rw [rc2Run]
    rcases step_act hl hstep with ⟨-, rfl, hnext⟩ | ⟨j, hslot, hj, hl', hnext⟩
    · rw [hnext]
      exact ih hl₁ (fun k s hk => by simp at hk) hrun
    · rw [hnext]
      refine ih hl₁ (fun k s hk => ?_) hrun
      rw [SetCall.rc2After, hslot]
      dsimp only
      rw [hl'] at hk
      by_cases hkj : k = j
      · subst hkj
        rw [List.getElem?_append_right (by simp), List.length_take, min_eq_left hj, Nat.sub_self,
          List.getElem?_cons_zero, Option.some.injEq] at hk
        rw [Function.update_self, hk]
        rfl
      · have hlt : k < j := by
          have := (List.getElem?_eq_some_iff.mp hk).1
          rw [List.length_append, List.length_take, List.length_singleton] at this
          omega
        rw [List.getElem?_append_left (by rw [List.length_take]; omega),
          List.getElem?_take_of_lt hlt] at hk
        rw [Function.update_of_ne hkj]
        exact hstart k s hk

theorem rc2Run_of_not_startWrote {cap i n : ℕ} {calls : List SetCall} {rc2 : ℕ → Int32}
    (h : ¬ StartWrote cap i n (calls.map SetCall.kind)) : rc2Run cap n rc2 calls i = rc2 i := by
  induction calls generalizing n rc2 with
  | nil => rfl
  | cons call calls ih =>
    rw [List.map_cons, StartWrote, not_or] at h
    rw [rc2Run, ih h.2, SetCall.rc2After]
    cases hslot : call.kind.slot cap n with
    | none => rfl
    | some j =>
      dsimp only
      by_cases hij : i = j
      · subst hij
        rw [Function.update_self]
        cases call with
        | start r => exact absurd ⟨rfl, hslot⟩ h.1
        | stop r => rfl
        | sample userId r => rfl
        | reset => rfl
      · rw [Function.update_of_ne hij]

theorem rc2Run_of_startWrote {cap i n : ℕ} {calls : List SetCall} {rc2 : ℕ → Int32} {rc : Int32}
    (hall : ∀ r, SetCall.start r ∈ calls → r.papiStart = rc)
    (h : rc2 i = rc ∨ StartWrote cap i n (calls.map SetCall.kind)) :
    rc2Run cap n rc2 calls i = rc := by
  induction calls generalizing n rc2 with
  | nil => exact h.resolve_right id
  | cons call calls ih =>
    rw [rc2Run]
    refine ih (fun r hr => hall r (List.mem_cons_of_mem _ hr)) ?_
    rw [List.map_cons, StartWrote] at h
    rw [SetCall.rc2After]
    cases hslot : call.kind.slot cap n with
    | none =>
      rcases h with h | ⟨-, hi⟩ | h
      · exact .inl h
      · rw [hslot] at hi
        cases hi
      · exact .inr h
    | some j =>
      dsimp only
      by_cases hij : i = j
      · subst hij
        rw [Function.update_self]
        cases call with
        | start r => exact .inl (hall r List.mem_cons_self)
        | stop r => exact h.imp id fun h => h.resolve_left fun hs => by cases hs.1
        | sample userId r => exact h.imp id fun h => h.resolve_left fun hs => by cases hs.1
        | reset => cases hslot
      · rw [Function.update_of_ne hij]
        refine h.imp id fun h => h.resolve_left fun hs => hij ?_
        exact (Option.some.inj (hslot.symm.trans hs.2)).symm

section Rows

variable {hasPapi : Bool} {args : CreateArgs} {o : SetupOutcomes} {size : ℕ}
  {config config' : BenchmarkConfiguration} {calls l : List SetCall}

theorem Created.runs (h : Created hasPapi args o args.size config)
    (hmeas : 0 < args.jmeasurements * 2) (hl : writersOf args.size calls = some l) :
    ∃ config' writer, calls.foldlM SetCall.apply config = .ok config' ∧
      Recorded config' writer (rc2Run args.size 0 (fun _ => 0) calls) ∧
      Shows config' writer (l.map fun call => ((), call)) := by
  have hsnd : (calls.map fun call => ((), call)).map Prod.snd = calls := by
    rw [List.map_map]
    exact List.map_id calls
  have hacts : (calls.map fun call => ((), call)).map (fun x => x.2.act x) =
      (calls.map fun call => call.act call).map (Act.map fun call => ((), call)) := by
    rw [List.map_map, List.map_map]
    exact List.map_congr_left fun call _ => by cases call <;> rfl
  have hlog : RewindLog.run config.dataSize [] ((calls.map fun call => ((), call)).map
      fun x => x.2.act x) = some (l.map fun call => ((), call)) := by
    rw [hacts, h.dataSize]
    refine (RewindLog.run_map args.size (fun call => ((), call)) []
      (calls.map fun call => call.act call)).trans ?_
    rw [writersOf] at hl
    rw [hl]
    rfl
  rcases Shows.run (h.logInv hmeas) (h.shows (L := Unit)) (calls.map fun call => ((), call)) with
    ⟨config', writer, l₁, hperform, hlog₁, -, hs⟩ | ⟨e, -, hnone⟩
  · rw [hlog, Option.some.injEq] at hlog₁
    have hrec := (h.recorded hmeas).run hperform
    rw [hsnd, h.dataSize, h.dataIndex] at hrec
    have hfold := foldlM_apply_of_perform hperform
    rw [hsnd] at hfold
    exact ⟨config', writer, hfold, hrec, hlog₁ ▸ hs⟩
  · rw [hlog] at hnone
    cases hnone

theorem written_papiRc1 {call : SetCall} (hcall : call ≠ .reset)
    (hu : config.uses backendPapi = true) (rc2 : Int32) :
    (call.written config rc2).papiRc1 = call.papiRc1 := by
  cases call with
  | start r => exact (doSnapshot_papiRc1 config r _).trans (if_pos hu)
  | stop r => exact (ubenchMeasureStop_papiRc1 config r _).trans (if_pos hu)
  | sample userId r => exact (doSnapshot_papiRc1 config r _).trans (if_pos hu)
  | reset => exact absurd rfl hcall

/-- Two snapshots of one writer agree unless the code of `PAPI_start` makes the difference. -/
theorem agreeOn_written {call : SetCall} (hcall : call ≠ .reset) {rc2 rc2' : Int32}
    (h : config.uses backendPapi → call.papiRc1 = papiOk → rc2 = rc2') :
    AgreeOn config (call.written config rc2) (call.written config rc2') :=
  ⟨rfl, fun _ => rfl, fun _ => rfl, fun _ => rfl, fun _ => rfl, fun _ => rfl,
    fun hu hrc => h hu ((written_papiRc1 hcall hu rc2).symm.trans hrc), fun _ _ _ _ => rfl⟩

/-- The raw value of a PAPI event in a slot whose writer's PAPI call succeeded. -/
theorem callGetRaw_written {event : EventInfo} (hserved : Served config event .papi)
    {call : SetCall} (hcall : call ≠ .reset) (hrc : call.papiRc1 = papiOk) {rc2 : Int32}
    (hrc2 : rc2 ≠ papiOk) : event.callGetRaw (call.written config rc2) = rc2.toInt64 := by
  have hrc1 : (call.written config rc2).papiRc1 = papiOk :=
    (written_papiRc1 hcall hserved.uses rc2).trans hrc
  rw [EventInfo.callGetRaw, hserved.opGetRaw]
  dsimp only [EventGetterFunc.raw]
  rw [getterRawPapi, if_neg (not_not.mpr hrc1), if_pos (show (call.written config rc2).papiRc2 ≠
    papiOk from hrc2)]
  rfl

theorem callGetRaw_of_rawRowOf {events : List EventInfo} {s s' : EventsSnapshot}
    (h : rawRowOf events s = rawRowOf events s') {event : EventInfo} (hmem : event ∈ events) :
    event.callGetRaw s = event.callGetRaw s' :=
  List.map_inj_left.mp (List.append_inj_left' h (by simp)) event hmem

/-- The visible snapshots after a run agree with what their writers wrote. -/
structure Writes (config config' : BenchmarkConfiguration) (l : List SetCall) (rc2 : ℕ → Int32) :
    Prop where
  events : config'.usedEvents = config.usedEvents
  served : EventsServed config'
  agree : List.Forall₂ (AgreeOn config') config'.log
    (l.mapIdx fun i call => call.written config (rc2 i))
  index_le : config'.dataIndex ≤ config'.data.length
  writes : ∀ call ∈ l, call ≠ .reset

theorem Created.writes (h : Created hasPapi args o args.size config)
    (hmeas : 0 < args.jmeasurements * 2) (hl : writersOf args.size calls = some l) :
    ∃ config', calls.foldlM SetCall.apply config = .ok config' ∧
      Writes config config' l (rc2Run args.size 0 (fun _ => 0) calls) := by
  obtain ⟨config', writer, hrun, hrec, hs⟩ := h.runs hmeas hl
  have hframe := foldlM_apply_frame hrun
  have hevents : config'.usedEvents = config.usedEvents := by
    rw [hframe]
    rfl
  have hwritten : ∀ (call : SetCall) (rc2 : Int32),
      call.written config' rc2 = call.written config rc2 := fun call rc2 =>
    (congrArg (fun c => SetCall.written c call rc2) hframe).trans (written_withLog _ _ _ _ _ _)
  have hlen : config'.log.length = l.length := by
    rw [hrec.inv.length_log, hs.1, List.length_map]
  have hget : ∀ i (hi : i < l.length) (hi' : i < config'.log.length),
      AgreeOn config' config'.log[i] (l[i].written config
        (rc2Run args.size 0 (fun _ => 0) calls i)) ∧ l[i] ≠ .reset := by
    intro i hi hi'
    rw [← hwritten]
    exact hrec.agree_getElem hs (List.getElem?_eq_getElem hi') (x := ((), l[i]))
      (by rw [List.getElem?_map, List.getElem?_eq_getElem hi]; rfl)
  refine ⟨config', hrun, hevents, ?_, ?_, ?_, fun call hmem => ?_⟩
  · refine h.loop.served.congr hevents ?_ ?_ <;> rw [hframe] <;> rfl
  · refine List.forall₂_iff_get.mpr ⟨by rw [List.length_mapIdx, hlen], fun i hi hi' => ?_⟩
    rw [List.get_eq_getElem, List.get_eq_getElem, List.getElem_mapIdx]
    exact (hget i (hlen ▸ hi) hi).1
  · rw [hrec.inv.length_data]
    exact hrec.inv.index_le
  · obtain ⟨i, hi, rfl⟩ := List.getElem_of_mem hmem
    exact (hget i hi (hlen.symm ▸ hi)).2

theorem Writes.rawRow {rc2 : ℕ → Int32} (h : Writes config config' l rc2) {i : ℕ} {call : SetCall}
    (hi : l[i]? = some call) : rawRow config' i =
      .ok (rawRowOf config.usedEvents (call.written config (rc2 i))) := by
  obtain ⟨hlt, rfl⟩ := List.getElem?_eq_some_iff.mp hi
  have hlen : config'.log.length = l.length := by
    rw [h.agree.length_eq, List.length_mapIdx]
  have hagree := List.Forall₂.get h.agree (hlen ▸ hlt) (by rw [List.length_mapIdx]; exact hlt)
  rw [List.get_eq_getElem, List.get_eq_getElem, List.getElem_mapIdx] at hagree
  rw [UbenchAgent.rawRow, readSnapshot_eq (hlen ▸ hlt), except_ok_bind,
    List.getD_eq_getElem _ _ (hlen ▸ hlt), ← h.events]
  exact congrArg Except.ok (rawRowOf_congr h.served hagree)

theorem Writes.resultRow {rc2 : ℕ → Int32} (h : Writes config config' l rc2) {p : ℕ × ℕ}
    {start stop : SetCall} (h₁ : l[p.1]? = some start) (h₂ : l[p.2]? = some stop) :
    resultRow config' p = .ok (config.usedEvents.map fun event =>
      event.callGet (start.written config (rc2 p.1)) (stop.written config (rc2 p.2))) := by
  have hlen : config'.log.length = l.length := by
    rw [h.agree.length_eq, List.length_mapIdx]
  have hagree : ∀ {i call}, l[i]? = some call → i < config'.log.length ∧
      AgreeOn config' (config'.log.getD i EventsSnapshot.calloc)
        (call.written config (rc2 i)) := by
    intro i call hi
    obtain ⟨hlt, rfl⟩ := List.getElem?_eq_some_iff.mp hi
    refine ⟨hlen ▸ hlt, ?_⟩
    have hget := agree_getD h.agree i
    rwa [List.getD_eq_getElem (l.mapIdx _) _ (by rw [List.length_mapIdx]; exact hlt),
      List.getElem_mapIdx] at hget
  obtain ⟨hlt₁, hagree₁⟩ := hagree h₁
  obtain ⟨hlt₂, hagree₂⟩ := hagree h₂
  rw [UbenchAgent.resultRow, readSnapshot_eq hlt₁, except_ok_bind, readSnapshot_eq hlt₂,
    except_ok_bind, ← h.events]
  refine congrArg Except.ok (List.map_congr_left fun event hmem => ?_)
  obtain ⟨getter, hserved⟩ := h.served event hmem
  exact callGet_congr hserved hagree₁ hagree₂

theorem Writes.resultPairs {rc2 : ℕ → Int32} (h : Writes config config' l rc2) :
    resultPairs config' = .ok (Pairing.pairs (fun t => t == snapshotTypeStart)
      (fun t => t == snapshotTypeEnd) none 0 (l.map SetCall.type)) := by
  have htypes : config'.log.map (·.type) = l.map SetCall.type := by
    have hmap : (l.mapIdx fun i call => call.written config (rc2 i)).map (·.type) =
        l.map SetCall.type := by
      refine List.ext_getElem (by simp) fun i hi hi' => ?_
      rw [List.length_map] at hi'
      rw [List.getElem_map, List.getElem_mapIdx, List.getElem_map]
      exact written_type config (h.writes _ (List.getElem_mem hi')) _
    rw [← hmap]
    refine List.ext_getElem (by simp [h.agree.length_eq]) fun i hi hi' => ?_
    rw [List.length_map] at hi hi'
    rw [List.getElem_map, List.getElem_map]
    exact (List.Forall₂.get h.agree hi hi').type
  rw [resultPairs_eq h.index_le, pairsOf_types, htypes]

theorem mem_pairs_lt {p : ℕ × ℕ}
    (hp : p ∈ Pairing.pairs (fun t => t == snapshotTypeStart) (fun t => t == snapshotTypeEnd) none 0
      (l.map SetCall.type)) : p.1 < l.length ∧ p.2 < l.length := by
  obtain ⟨hs, -, t, ht, -⟩ := Pairing.mem_pairs hp
  have hlt := (List.getElem?_eq_some_iff.mp ht).1
  rw [List.length_map] at hlt
  rcases hs with hs | hs
  · cases hs
  · omega

end Rows

def CallKind.act {L : Type*} (x : L) : CallKind → Act L
  | .start => .overwrite x
  | .stop => .append x
  | .sample _ => .overwrite x
  | .reset => .clear

theorem writersOf_kind (cap : ℕ) (calls : List SetCall) :
    (writersOf cap calls).map (List.map SetCall.kind) =
      RewindLog.run cap [] ((calls.map SetCall.kind).map fun kind => kind.act kind) := by
  rw [writersOf, ← RewindLog.run_map, List.map_nil, List.map_map, List.map_map]
  congr 1
  exact List.map_congr_left fun call _ => by cases call <;> rfl

theorem writersOf_kinds {cap : ℕ} {calls calls' l l' : List SetCall}
    (hkinds : calls'.map SetCall.kind = calls.map SetCall.kind) (hl : writersOf cap calls = some l)
    (hl' : writersOf cap calls' = some l') : l'.map SetCall.kind = l.map SetCall.kind := by
  have h := writersOf_kind cap calls
  have h' := writersOf_kind cap calls'
  rw [hl, Option.map_some] at h
  rw [hl', Option.map_some, hkinds, ← h, Option.some.injEq] at h'
  exact h'

/-- Changing what calls read changes what the writers read and nothing else. -/
theorem writersOf_map {cap : ℕ} {calls l : List SetCall} (f : SetCall → SetCall)
    (hf : ∀ call, (f call).kind = call.kind) (hl : writersOf cap calls = some l) :
    writersOf cap (calls.map f) = some (l.map f) := by
  have hmap := RewindLog.run_map cap f [] (calls.map fun call => call.act call)
  rw [writersOf] at hl
  rw [hl, List.map_nil] at hmap
  rw [writersOf, ← Option.map_some, ← hmap, List.map_map, List.map_map]
  congr 1
  refine List.map_congr_left fun call _ => ?_
  have hkind := hf call
  cases call <;> cases hfc : f _ <;> rw [hfc] at hkind <;>
    simp [SetCall.kind, SetCall.act, Act.map, hfc] at hkind ⊢

def CallKind.type : CallKind → Int32
  | .start => snapshotTypeStart
  | .stop => snapshotTypeEnd
  | .sample userId => userId
  | .reset => 0

theorem type_of_kind (call : SetCall) : call.kind.type = call.type := by
  cases call <;> rfl

theorem map_type_of_kinds {l l' : List SetCall} (h : l'.map SetCall.kind = l.map SetCall.kind) :
    l'.map SetCall.type = l.map SetCall.type := by
  have hmap := congrArg (List.map CallKind.type) h
  rw [List.map_map, List.map_map] at hmap
  simpa only [Function.comp_def, type_of_kind] using hmap

/-- After the calls every value that the results report of a slot is decided by the call
that wrote the slot last: any calls of the same kinds with the same last writer give the
same value. -/
def LastWritersDecide (hasPapi : Bool) (a : Agent) (id : ℤ) (cap : ℕ) (calls : List SetCall) :
    Prop :=
  ∀ calls' l l', calls'.map SetCall.kind = calls.map SetCall.kind →
    writersOf cap calls = some l → writersOf cap calls' = some l' →
    ∃ config config' pairs, RunsTo hasPapi a id calls config ∧ RunsTo hasPapi a id calls' config' ∧
      (∀ i, i < l.length → l[i]? = l'[i]? → rawRow config i = rawRow config' i) ∧
      resultPairs config = .ok pairs ∧ resultPairs config' = .ok pairs ∧
      ∀ p ∈ pairs, l[p.1]? = l'[p.1]? → l[p.2]? = l'[p.2]? →
        resultRow config p = resultRow config' p

/-- Every slot that some `start` wrote was written last by a `start`, or by a call whose own
PAPI call failed. -/
def NoStaleStart (cap : ℕ) (calls : List SetCall) : Prop :=
  ∀ l, writersOf cap calls = some l → ∀ i call, l[i]? = some call →
    StartWrote cap i 0 (calls.map SetCall.kind) → call.papiRc1 = papiOk → call.kind = .start

def SetCall.withStart (rc : Int32) : SetCall → SetCall
  | .start r => .start { r with papiStart := rc }
  | call => call

theorem withStart_kind (rc : Int32) (call : SetCall) : (call.withStart rc).kind = call.kind := by
  cases call <;> rfl

theorem withStart_of_kind {rc : Int32} {call : SetCall} (h : call.kind ≠ .start) :
    call.withStart rc = call := by
  cases call with
  | start r => exact absurd rfl h
  | stop r => rfl
  | sample userId r => rfl
  | reset => rfl

section Report

variable {hasPapi : Bool} {a : Agent} {id : ℤ} {args : CreateArgs} {o : SetupOutcomes}
  {config : BenchmarkConfiguration} {calls calls' l l' : List SetCall}

/-- Without stale codes the slots of one writer agree, whatever else the two runs read. -/
theorem NoStaleStart.agreeOn (h : NoStaleStart args.size calls) (hcap : 2 ≤ args.size)
    (hkinds : calls'.map SetCall.kind = calls.map SetCall.kind)
    (hl : writersOf args.size calls = some l) (hl' : writersOf args.size calls' = some l') {i : ℕ}
    {call : SetCall} (hi : l[i]? = some call) (hi' : l'[i]? = some call) (hcall : call ≠ .reset) :
    AgreeOn config (call.written config (rc2Run args.size 0 (fun _ => 0) calls i))
      (call.written config (rc2Run args.size 0 (fun _ => 0) calls' i)) := by
  refine agreeOn_written hcall fun _ hrc => ?_
  by_cases hwrote : StartWrote args.size i 0 (calls.map SetCall.kind)
  · have hstart := h l hl i call hi hwrote hrc
    cases call with
    | start r =>
      have hnone : ∀ (i : ℕ) (r : Reading), ([] : List SetCall)[i]? = some (.start r) →
          (0 : Int32) = r.papiStart := fun i r h => by simp at h
      exact (rc2Run_start hcap (Nat.zero_le _) hnone hl hi).trans
        (rc2Run_start hcap (Nat.zero_le _) hnone hl' hi').symm
    | stop r => cases hstart
    | sample userId r => cases hstart
    | reset => cases hstart
  · rw [rc2Run_of_not_startWrote hwrote, rc2Run_of_not_startWrote (hkinds ▸ hwrote)]

/-- Without stale codes, or without PAPI, the last writers decide. -/
theorem Created.lastWritersDecide (h : Created hasPapi args o args.size config)
    (hmeas : 0 < args.jmeasurements * 2) (hc : a.validConfig id = some config)
    (hcond : config.uses backendPapi = true → NoStaleStart args.size calls) :
    LastWritersDecide hasPapi a id args.size calls := by
  intro calls' l l' hkinds hl hl'
  obtain ⟨config₁, hrun₁, hw₁⟩ := h.writes hmeas hl
  obtain ⟨config₂, hrun₂, hw₂⟩ := h.writes hmeas hl'
  have hagree : ∀ {i : ℕ} {call : SetCall}, l[i]? = some call → l'[i]? = some call →
      AgreeOn config (call.written config (rc2Run args.size 0 (fun _ => 0) calls i))
        (call.written config (rc2Run args.size 0 (fun _ => 0) calls' i)) := by
    intro i call hi hi'
    have hcall := hw₁.writes call (List.mem_of_getElem? hi)
    by_cases hu : config.uses backendPapi = true
    · exact (hcond hu).agreeOn (size_spec hmeas).1 hkinds hl hl' hi hi' hcall
    · exact agreeOn_written hcall fun hu' => absurd hu' hu
  have hpairs := hw₂.resultPairs
  rw [map_type_of_kinds (writersOf_kinds hkinds hl hl')] at hpairs
  refine ⟨config₁, config₂, _, (runsTo_iff hc calls).mpr hrun₁, (runsTo_iff hc calls').mpr hrun₂,
    fun i hi hsame => ?_, hw₁.resultPairs, hpairs, fun p hp h₁ h₂ => ?_⟩
  · have hget : l[i]? = some l[i] := List.getElem?_eq_getElem hi
    rw [hw₁.rawRow hget, hw₂.rawRow (hsame ▸ hget)]
    exact congrArg Except.ok (rawRowOf_congr h.loop.served (hagree hget (hsame ▸ hget)))
  · obtain ⟨hlt₁, hlt₂⟩ := mem_pairs_lt hp
    have hget₁ : l[p.1]? = some l[p.1] := List.getElem?_eq_getElem hlt₁
    have hget₂ : l[p.2]? = some l[p.2] := List.getElem?_eq_getElem hlt₂
    rw [hw₁.resultRow hget₁ hget₂, hw₂.resultRow (h₁ ▸ hget₁) (h₂ ▸ hget₂)]
    refine congrArg Except.ok (List.map_congr_left fun event hmem => ?_)
    obtain ⟨getter, hserved⟩ := h.loop.served event hmem
    exact callGet_congr hserved (hagree hget₁ (h₁ ▸ hget₁)) (hagree hget₂ (h₂ ▸ hget₂))

/-- If the last writers decide and PAPI is used, there are no stale codes: otherwise two
codes of the overwritten `start`s would show in the slot. -/
theorem Created.noStaleStart (h : Created hasPapi args o args.size config)
    (hmeas : 0 < args.jmeasurements * 2) (hc : a.validConfig id = some config)
    (hu : config.uses backendPapi = true)
    (hdecide : LastWritersDecide hasPapi a id args.size calls) :
    NoStaleStart args.size calls := by
  intro l hl i call hi hwrote hrc
  by_contra hkind
  obtain ⟨event, hmem, hget⟩ := h.loop.used hu
  obtain ⟨getter, hserved⟩ := h.loop.served event hmem
  obtain rfl : getter = .papi := Option.some.inj (hserved.opGet.symm.trans hget)
  -- The row is the same whatever code `rc` the `start`s got, and shows it unless it is OK.
  have hrow : ∀ rc : Int32, rc ≠ papiOk → ∃ config', RunsTo hasPapi a id calls config' ∧
      ∃ s, rawRow config' i = .ok (rawRowOf config.usedEvents s) ∧
        event.callGetRaw s = rc.toInt64 := by
    intro rc hne
    have hl' := writersOf_map (SetCall.withStart rc) (withStart_kind rc) hl
    have hi' : (l.map (SetCall.withStart rc))[i]? = some call := by
      rw [List.getElem?_map, hi, Option.map_some, withStart_of_kind hkind]
    have hkinds : (calls.map (SetCall.withStart rc)).map SetCall.kind =
        calls.map SetCall.kind := by
      rw [List.map_map]
      exact List.map_congr_left fun call _ => withStart_kind rc call
    obtain ⟨config₁, config₂, -, hruns₁, hruns₂, hraw, -⟩ := hdecide _ l _ hkinds hl hl'
    obtain ⟨config', hrun, hw⟩ := h.writes hmeas hl'
    obtain rfl := ((runsTo_iff hc _).mpr hrun).unique hc hruns₂
    have hrc2 : rc2Run args.size 0 (fun _ => 0) (calls.map (SetCall.withStart rc)) i = rc := by
      refine rc2Run_of_startWrote (fun r hr => ?_) (.inr (hkinds ▸ hwrote))
      obtain ⟨call', -, hcall'⟩ := List.mem_map.mp hr
      cases call' <;> cases hcall'
      rfl
    refine ⟨config₁, hruns₁, call.written config rc, ?_, callGetRaw_written hserved
      (fun hreset => ?_) hrc hne⟩
    · rw [hraw i (List.getElem?_eq_some_iff.mp hi).1 (hi.trans hi'.symm), hw.rawRow hi', hrc2]
    · exact hw.writes call (List.mem_of_getElem? hi') hreset
  obtain ⟨config₁, hruns₁, s₁, hrow₁, hval₁⟩ := hrow 1 (by decide)
  obtain ⟨config₂, hruns₂, s₂, hrow₂, hval₂⟩ := hrow 2 (by decide)
  obtain rfl := hruns₁.unique hc hruns₂
  have hsame := callGetRaw_of_rawRowOf (Except.ok.inj (hrow₁.symm.trans hrow₂)) hmem
  rw [hval₁, hval₂] at hsame
  exact absurd hsame (by decide)

end Report

/-- On a created event set the last writers decide about every reported value exactly if no
PAPI event is used or no slot shows the code of an overwritten `start`. -/
theorem createEventSet_lastWritersDecide_iff {hasPapi : Bool} {a a' : Agent} {id : ℤ}
    {args : CreateArgs} {o : CreateOutcomes} {calls : List SetCall}
    (hcreate : createEventSet hasPapi a args o = (a', .ok id)) :
    LastWritersDecide hasPapi a' id args.size calls ↔
      ((∃ name ∈ args.jeventNames, isPapiName hasPapi o.papi name = true) →
        NoStaleStart args.size calls) := by
  obtain ⟨hacc, -, config, hc, hcreated, -⟩ := createEventSet_created hcreate
  rw [← hcreated.loop.uses]
  exact ⟨fun h hu => hcreated.noStaleStart hacc.measurements hc hu h,
    hcreated.lastWritersDecide hacc.measurements hc⟩

/-- After a `reset` a `stop` in the slot of a `start` shows the return code that the `start`
got from PAPI. -/
theorem not_lastWritersDecide_stop_after_reset :
    ∃ a', createEventSet true .initial .instructions .success = (a', .ok 0) ∧
      writersOf 2 [.start .zero, .reset, .stop .zero] = some [.stop .zero] ∧
      ¬ LastWritersDecide true a' 0 2 [.start .zero, .reset, .stop .zero] := by
  have hcreate := createEventSet_eq (accepted_instructions .initial)
  obtain ⟨hacc, -, config, hc, hcreated, -⟩ := createEventSet_created hcreate
  refine ⟨_, hcreate, rfl, fun hdecide => ?_⟩
  have hnone := hcreated.noStaleStart hacc.measurements hc
    (hcreated.loop.uses.mpr isPapiName_instructions) hdecide
  have hstart := hnone [.stop .zero] rfl 0 (.stop .zero) rfl (by decide) rfl
  cases hstart

/-- A second measurement after a `reset` writes the same slots in the same way. -/
theorem lastWritersDecide_two_measurements :
    LastWritersDecide true (createEventSet true .initial .instructions .success).1 0 2
      [.start .zero, .stop .zero, .reset, .start .zero, .stop .zero] := by
  refine (createEventSet_lastWritersDecide_iff
    (createEventSet_eq (accepted_instructions .initial))).mpr fun _ l hl i call hi hwrote _ => ?_
  obtain rfl : [.start .zero, .stop .zero] = l := Option.some.inj hl
  match i with
  | 0 =>
    obtain rfl : SetCall.start .zero = call := Option.some.inj hi
    rfl
  | 1 => exact absurd hwrote (by decide)
  | i + 2 => cases hi

end UbenchAgent
