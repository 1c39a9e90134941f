import UbenchAgent.EventLog

/-!
# Runs of calls on one event set

Where a call writes depends on its kind and on the index alone, and so does whether
it stays inside the array.  A run is followed together with the last writer of each
slot; every slot holds what its last writer put there, except for the return code of
`PAPI_start`, which only `start` writes.
-/

namespace UbenchAgent

open RewindLog

inductive CallKind
  | start
  | stop
  | sample (userId : Int32)
  | reset
  deriving DecidableEq, Repr

def SetCall.kind : SetCall → CallKind
  | .start _ => .start
  | .stop _ => .stop
  | .sample userId _ => .sample userId
  | .reset => .reset

def CallKind.slot (cap n : ℕ) : CallKind → Option ℕ
  | .start => some (if n = cap then cap - 2 else n)
  | .stop => some n
  | .sample _ => some (if n = cap then cap - 2 else n)
  | .reset => none

def CallKind.next (cap n : ℕ) (kind : CallKind) : ℕ :=
  match kind.slot cap n with
  | none => 0
  | some i => i + 1

/-- No `stop` of the list comes when the array is full. -/
def StopsHaveRoom (cap : ℕ) : ℕ → List CallKind → Prop
  | _, [] => True
  | n, kind :: kinds =>
    (kind = .stop → n < cap) ∧ StopsHaveRoom cap (kind.next cap n) kinds

instance StopsHaveRoom.decidable (cap : ℕ) :
    ∀ (n : ℕ) (kinds : List CallKind), Decidable (StopsHaveRoom cap n kinds)
  | _, [] => .isTrue trivial
  | n, kind :: kinds =>
    have := StopsHaveRoom.decidable cap (kind.next cap n) kinds
    inferInstanceAs (Decidable ((kind = .stop → n < cap) ∧ _))

theorem slot_eq {config : BenchmarkConfiguration} (h : LogInv config) (call : SetCall) :
    call.slot config = call.kind.slot config.dataSize config.dataIndex := by
  have hne : config.dataSize ≠ 0 := by
    have := h.two_le
    omega
  cases call <;> simp [SetCall.slot, SetCall.kind, CallKind.slot, stepBack_index h, hne]

section Step

variable {config : BenchmarkConfiguration}

theorem apply_of_room (h : LogInv config) {call : SetCall}
    (hroom : call.kind = .stop → config.dataIndex < config.dataSize) :
    (∃ i s, call.slot config = some i ∧ config.data[i]? = some s ∧ i < config.dataSize ∧
        i ≤ config.dataIndex ∧
        call.apply config = .ok (config.withLog (config.data.set i (call.fill config s)) (i + 1)
          (call.papi config))) ∨
      (call = .reset ∧ call.slot config = none ∧
        call.apply config = .ok (config.withLog config.data 0 config.papiState)) := by
  rcases apply_cases h (l := List.replicate config.dataIndex ()) (by simp) call () with
    ⟨kept, s, -, hkept, hlt, hslot, hs, -, ha⟩ | ⟨rfl, -, ha⟩ | ⟨⟨r, rfl⟩, hfull, -, -⟩
  · refine .inl ⟨kept.length, s, hslot, hs, hlt, ?_, ha⟩
    rw [slot_eq h] at hslot
    have := h.index_le
    cases call <;>
      simp only [SetCall.kind, CallKind.slot, Option.some.injEq, reduceCtorEq] at hslot <;>
      (try split_ifs at hslot) <;> omega
  · exact .inr ⟨rfl, rfl, ha⟩
  · have := hroom rfl
    omega

theorem apply_of_no_room (h : LogInv config) {call : SetCall} (hkind : call.kind = .stop)
    (hfull : ¬ config.dataIndex < config.dataSize) :
    call.apply config = .error (.snapshotIndex config.dataSize) := by
  cases call with
  | stop r =>
    have hidx : config.dataIndex = config.dataSize := by
      have := h.index_le
      omega
    have hslot : SetCall.slot config (.stop r) = some config.dataSize := by rw [← hidx]; rfl
    rw [apply_of_slot hslot, List.getElem?_eq_none (by rw [h.length_data])]
  | start r => cases hkind
  | sample userId r => cases hkind
  | reset => cases hkind

theorem apply_index (h : LogInv config) {call : SetCall} {config' : BenchmarkConfiguration}
    (happly : call.apply config = .ok config') :
    config'.dataIndex = call.kind.next config.dataSize config.dataIndex := by
  rw [CallKind.next, ← slot_eq h]
  by_cases hroom : call.kind = .stop → config.dataIndex < config.dataSize
  · rcases apply_of_room h hroom with ⟨i, s, hslot, -, -, -, ha⟩ | ⟨-, hslot, ha⟩
    · rw [happly] at ha
      cases ha
      rw [hslot]
      rfl
    · rw [happly] at ha
      cases ha
      rw [hslot]
      rfl
  · obtain ⟨hkind, hfull⟩ := Classical.not_imp.mp hroom
    rw [apply_of_no_room h hkind hfull] at happly
    cases happly

theorem apply_frame {call : SetCall} {config' : BenchmarkConfiguration}
    (happly : call.apply config = .ok config') :
    config' = config.withLog config'.data config'.dataIndex config'.papiState := by
  cases hslot : call.slot config with
  | some i =>
    rw [apply_of_slot hslot] at happly
    cases hs : config.data[i]? with
    | none => simp [hs] at happly
    | some s =>
      simp only [hs, Except.ok.injEq] at happly
      rw [← happly]
      rfl
  | none =>
    rcases apply_of_slot_none hslot with ⟨-, ha⟩ | ⟨-, ha⟩ <;> rw [happly] at ha <;> cases ha <;> rfl

end Step

variable {L : Type}

def recordWriter (config : BenchmarkConfiguration) (writer : ℕ → Option (L × SetCall))
    (x : L × SetCall) : ℕ → Option (L × SetCall) :=
  match x.2.slot config with
  | none => writer
  | some i => Function.update writer i (some x)

def perform (t : BenchmarkConfiguration × (ℕ → Option (L × SetCall))) (x : L × SetCall) :
    Except Fault (BenchmarkConfiguration × (ℕ → Option (L × SetCall))) := do
  let config ← x.2.apply t.1
  .ok (config, recordWriter t.1 t.2 x)

def performAll (config : BenchmarkConfiguration) (calls : List (L × SetCall)) :
    Except Fault (BenchmarkConfiguration × (ℕ → Option (L × SetCall))) :=
  calls.foldlM perform (config, fun _ => none)

def SetCall.rc2Over (old : Int32) : SetCall → Int32
  | .start r => r.papiStart
  | .stop _ => old
  | .sample _ _ => old
  | .reset => old

/-- The values of `papi_rc2` in the slots after a call at index `n`, if PAPI is used. -/
def SetCall.rc2After (cap n : ℕ) (rc2 : ℕ → Int32) (call : SetCall) : ℕ → Int32 :=
  match call.kind.slot cap n with
  | none => rc2
  | some i => Function.update rc2 i (call.rc2Over (rc2 i))

def rc2Run (cap : ℕ) : ℕ → (ℕ → Int32) → List SetCall → ℕ → Int32
  | _, rc2, [] => rc2
  | n, rc2, call :: calls => rc2Run cap (call.kind.next cap n) (call.rc2After cap n rc2) calls

/-- What a call leaves in a slot whose `papi_rc2` ends up as `rc2`. -/
def SetCall.written (config : BenchmarkConfiguration) (call : SetCall) (rc2 : Int32) :
    EventsSnapshot :=
  { call.fill config EventsSnapshot.calloc with papiRc2 := rc2 }

/-- The slots of a configuration hold what their last writers put there. -/
structure Recorded (config : BenchmarkConfiguration) (writer : ℕ → Option (L × SetCall))
    (rc2 : ℕ → Int32) : Prop where
  inv : LogInv config
  visible : ∀ i, i < config.dataIndex → ∃ x, writer i = some x
  papiRc2 : config.uses backendPapi → ∀ i s, config.data[i]? = some s → s.papiRc2 = rc2 i
  agree : ∀ i s x, config.data[i]? = some s → writer i = some x →
    AgreeOn config s (x.2.written config (rc2 i))
  writes : ∀ i x, writer i = some x → x.2 ≠ .reset

theorem AgreeOn.withLog {config : BenchmarkConfiguration} {s s' : EventsSnapshot}
    (h : AgreeOn config s s') (data : List EventsSnapshot) (i : ℕ) (papiState : PapiState) :
    AgreeOn (config.withLog data i papiState) s s' :=
  ⟨h.type, h.timestamp, h.threadtime, h.resourceUsage, h.compilations, h.papiRc1, h.papiRc2,
    h.papiEvents⟩

@[simp] theorem fill_withLog (config : BenchmarkConfiguration) (data : List EventsSnapshot)
    (i : ℕ) (papiState : PapiState) (call : SetCall) :
    call.fill (config.withLog data i papiState) = call.fill config := by
  cases call <;> rfl

theorem written_withLog (config : BenchmarkConfiguration) (data : List EventsSnapshot)
    (i : ℕ) (papiState : PapiState) (call : SetCall) (rc2 : Int32) :
    call.written (config.withLog data i papiState) rc2 = call.written config rc2 := by
  simp [SetCall.written]

section Fields

variable (config : BenchmarkConfiguration) (r : Reading) (s : EventsSnapshot)

@[simp] theorem doSnapshot_type : (doSnapshot config r s).type = s.type := by
  simp only [doSnapshot, apply_ite EventsSnapshot.type, ite_self]

@[simp] theorem doSnapshot_timestamp : (doSnapshot config r s).timestamp =
    if config.uses backendSysWallclock then r.wallclock else s.timestamp := by
  simp only [doSnapshot, apply_ite EventsSnapshot.timestamp, ite_self]

@[simp] theorem doSnapshot_threadtime : (doSnapshot config r s).threadtime =
    if config.uses backendSysThreadtime then r.threadtime else s.threadtime := by
  simp only [doSnapshot, apply_ite EventsSnapshot.threadtime, ite_self]

@[simp] theorem doSnapshot_resourceUsage : (doSnapshot config r s).resourceUsage =
    if config.uses backendResourceUsage then r.resourceUsage else s.resourceUsage := by
  simp only [doSnapshot, apply_ite EventsSnapshot.resourceUsage, ite_self]

@[simp] theorem doSnapshot_compilations : (doSnapshot config r s).compilations =
    if config.uses backendJvmCompilations then r.compilationTotal.toInt64 else s.compilations := by
  simp only [doSnapshot, apply_ite EventsSnapshot.compilations, ite_self]

@[simp] theorem doSnapshot_papiRc1 : (doSnapshot config r s).papiRc1 =
    if config.uses backendPapi then r.papiRead else s.papiRc1 := by
  simp only [doSnapshot, apply_ite EventsSnapshot.papiRc1, ite_self]

@[simp] theorem doSnapshot_papiRc2 : (doSnapshot config r s).papiRc2 = s.papiRc2 := by
  simp only [doSnapshot, apply_ite EventsSnapshot.papiRc2, ite_self]

@[simp] theorem doSnapshot_papiEvents : (doSnapshot config r s).papiEvents =
    if config.uses backendPapi then
      storePapiValues config.usedPapiEventsCount r.papiRead r.papiValues s.papiEvents else s.papiEvents := by
  simp only [doSnapshot, apply_ite EventsSnapshot.papiEvents, ite_self]

@[simp] theorem ubenchMeasureStop_type : (ubenchMeasureStop config r s).type = snapshotTypeEnd := by
  simp only [ubenchMeasureStop, apply_ite EventsSnapshot.type, ite_self]

@[simp] theorem ubenchMeasureStop_timestamp : (ubenchMeasureStop config r s).timestamp =
    if config.uses backendSysWallclock then r.wallclock else s.timestamp := by
  simp only [ubenchMeasureStop, apply_ite EventsSnapshot.timestamp, ite_self]

@[simp] theorem ubenchMeasureStop_threadtime : (ubenchMeasureStop config r s).threadtime =
    if config.uses backendSysThreadtime then r.threadtime else s.threadtime := by
  simp only [ubenchMeasureStop, apply_ite EventsSnapshot.threadtime, ite_self]

@[simp] theorem ubenchMeasureStop_resourceUsage : (ubenchMeasureStop config r s).resourceUsage =
    if config.uses backendResourceUsage then r.resourceUsage else s.resourceUsage := by
  simp only [ubenchMeasureStop, apply_ite EventsSnapshot.resourceUsage, ite_self]

@[simp] theorem ubenchMeasureStop_compilations : (ubenchMeasureStop config r s).compilations =
    if config.uses backendJvmCompilations then r.compilationTotal.toInt64 else s.compilations := by
  simp only [ubenchMeasureStop, apply_ite EventsSnapshot.compilations, ite_self]

@[simp] theorem ubenchMeasureStop_papiRc1 : (ubenchMeasureStop config r s).papiRc1 =
    if config.uses backendPapi then r.papiStop else s.papiRc1 := by
  simp only [ubenchMeasureStop, apply_ite EventsSnapshot.papiRc1, ite_self]

@[simp] theorem ubenchMeasureStop_papiRc2 : (ubenchMeasureStop config r s).papiRc2 = s.papiRc2 := by
  simp only [ubenchMeasureStop, apply_ite EventsSnapshot.papiRc2, ite_self]

@[simp] theorem ubenchMeasureStop_papiEvents : (ubenchMeasureStop config r s).papiEvents =
    if config.uses backendPapi then
      storePapiValues config.usedPapiEventsCount r.papiStop r.papiValues s.papiEvents else s.papiEvents := by
  simp only [ubenchMeasureStop, apply_ite EventsSnapshot.papiEvents, ite_self]

end Fields

/-- The return code of `PAPI_start` is stored by `start` only. -/
theorem papiRc2_fill (config : BenchmarkConfiguration) (call : SetCall) (s : EventsSnapshot) :
    (call.fill config s).papiRc2 =
      if config.uses backendPapi then call.rc2Over s.papiRc2 else s.papiRc2 := by
  cases call with
  | start r =>
    simp only [SetCall.fill, ubenchMeasureStart, doSnapshot_papiRc2, SetCall.rc2Over]
    split_ifs <;> rfl
  | stop r => simp only [SetCall.fill, ubenchMeasureStop_papiRc2, SetCall.rc2Over, ite_self]
  | sample userId r =>
    simp only [SetCall.fill, ubenchMeasureSample, doSnapshot_papiRc2, SetCall.rc2Over, ite_self]
  | reset => simp only [SetCall.fill, id, SetCall.rc2Over, ite_self]

/-- Every other field that counts is overwritten by every call. -/
theorem fill_agree (config : BenchmarkConfiguration) {call : SetCall} (hcall : call ≠ .reset)
    (s : EventsSnapshot) (rc2 : Int32)
    (hrc2 : config.uses backendPapi → (call.fill config s).papiRc2 = rc2) :
    AgreeOn config (call.fill config s) (call.written config rc2) := by
  simp only [papiRc2_fill] at hrc2
  cases call with
  | start r =>
    constructor <;>
      simp +contextual [SetCall.written, SetCall.fill, ubenchMeasureStart, storePapiValues]
    intro hu _
    exact (if_pos hu).symm.trans (hrc2 hu)
  | stop r =>
    constructor <;>
      simp +contextual [SetCall.written, SetCall.fill, storePapiValues]
    intro hu _
    exact (if_pos hu).symm.trans (hrc2 hu)
  | sample userId r =>
    constructor <;>
      simp +contextual [SetCall.written, SetCall.fill, ubenchMeasureSample, storePapiValues]
    intro hu _
    exact (if_pos hu).symm.trans (hrc2 hu)
  | reset => exact absurd rfl hcall

theorem Recorded.write {config : BenchmarkConfiguration} {writer : ℕ → Option (L × SetCall)}
    {rc2 : ℕ → Int32} (h : Recorded config writer rc2) {label : L} {call : SetCall}
    (hreset : call ≠ .reset) {i : ℕ} {s : EventsSnapshot} (hs : config.data[i]? = some s)
    (hle : i ≤ config.dataIndex) {papiState : PapiState}
    (hinv : LogInv (config.withLog (config.data.set i (call.fill config s)) (i + 1) papiState)) :
    Recorded (config.withLog (config.data.set i (call.fill config s)) (i + 1) papiState)
      (Function.update writer i (some (label, call)))
      (Function.update rc2 i (call.rc2Over (rc2 i))) where
  inv := hinv
  visible j hj := by
    by_cases hji : j = i
    · exact ⟨_, by rw [hji, Function.update_self]⟩
    · rw [Function.update_of_ne hji]
      have hj' : j < i + 1 := hj
      exact h.visible j (by omega)
  papiRc2 hu j s' hs' := by
    have hdata : i < config.data.length := (List.getElem?_eq_some_iff.mp hs).1
    have hset : (config.data.set i (call.fill config s))[j]? = some s' := hs'
    by_cases hji : j = i
    · subst hji
      rw [List.getElem?_set_self hdata, Option.some.injEq] at hset
      have hu' : config.uses backendPapi = true := hu
      rw [Function.update_self, ← hset, papiRc2_fill, if_pos hu', h.papiRc2 hu j s hs]
    · rw [List.getElem?_set_ne (Ne.symm hji)] at hset
      rw [Function.update_of_ne hji]
      exact h.papiRc2 hu j s' hset
  agree j s' y hs' hy := by
    have hdata : i < config.data.length := (List.getElem?_eq_some_iff.mp hs).1
    have hset : (config.data.set i (call.fill config s))[j]? = some s' := hs'
    rw [written_withLog]
    refine AgreeOn.withLog ?_ _ _ _
    by_cases hji : j = i
    · subst hji
      rw [List.getElem?_set_self hdata, Option.some.injEq] at hset
      rw [Function.update_self, Option.some.injEq] at hy
      rw [Function.update_self, ← hset, ← hy]
      refine fill_agree config hreset s _ fun hu => ?_
      rw [papiRc2_fill, if_pos hu, h.papiRc2 hu j s hs]
    · rw [List.getElem?_set_ne (Ne.symm hji)] at hset
      rw [Function.update_of_ne hji] at hy ⊢
      exact h.agree j s' y hset hy
  writes j y hy := by
    by_cases hji : j = i
    · rw [hji, Function.update_self, Option.some.injEq] at hy
      rw [← hy]
      exact hreset
    · rw [Function.update_of_ne hji] at hy
      exact h.writes j y hy

theorem Recorded.rewind {config : BenchmarkConfiguration} {writer : ℕ → Option (L × SetCall)}
    {rc2 : ℕ → Int32} (h : Recorded config writer rc2) {papiState : PapiState}
    (hinv : LogInv (config.withLog config.data 0 papiState)) :
    Recorded (config.withLog config.data 0 papiState) writer rc2 where
  inv := hinv
  visible j hj := absurd hj (Nat.not_lt_zero j)
  papiRc2 := h.papiRc2
  agree j s y hs hy := by
    rw [written_withLog]
    exact (h.agree j s y hs hy).withLog _ _ _
  writes := h.writes

/-- One labelled call keeps the record. -/
theorem Recorded.perform {config config' : BenchmarkConfiguration}
    {writer writer' : ℕ → Option (L × SetCall)} {rc2 : ℕ → Int32} {x : L × SetCall}
    (h : Recorded config writer rc2)
    (hperform : UbenchAgent.perform (config, writer) x = .ok (config', writer')) :
    Recorded config' writer' (x.2.rc2After config.dataSize config.dataIndex rc2) := by
  obtain ⟨label, call⟩ := x
  obtain ⟨config₁, happly, heq⟩ := except_bind_ok.mp hperform
  obtain ⟨rfl, rfl⟩ : config₁ = config' ∧ recordWriter config writer (label, call) = writer' := by
    simpa using heq
  have hinv := h.inv.apply happly
  dsimp only at happly ⊢
  by_cases hroom : call.kind = .stop → config.dataIndex < config.dataSize
  · rcases apply_of_room h.inv hroom with ⟨i, s, hslot, hs, hlt, hle, ha⟩ | ⟨rfl, hslot, ha⟩
    · rw [happly, Except.ok.injEq] at ha
      have hreset : call ≠ .reset := by
        rintro rfl
        cases hslot
      have hrc2 : call.rc2After config.dataSize config.dataIndex rc2 =
          Function.update rc2 i (call.rc2Over (rc2 i)) := by
        simp [SetCall.rc2After, ← slot_eq h.inv, hslot]
      have hwriter : recordWriter config writer (label, call) =
          Function.update writer i (some (label, call)) := by
        simp [recordWriter, hslot]
      subst ha
      rw [hrc2, hwriter]
      exact h.write hreset hs hle hinv
    · rw [happly, Except.ok.injEq] at ha
      have hwriter : recordWriter config writer (label, .reset) = writer := by
        simp [recordWriter, hslot]
      subst ha
      rw [hwriter]
      exact h.rewind hinv
  · obtain ⟨hkind, hfull⟩ := Classical.not_imp.mp hroom
    rw [apply_of_no_room h.inv hkind hfull] at happly
    cases happly

theorem foldlM_apply_frame {calls : List SetCall} {config config' : BenchmarkConfiguration}
    (h : calls.foldlM SetCall.apply config = .ok config') :
    config' = config.withLog config'.data config'.dataIndex config'.papiState := by
  induction calls generalizing config with
  | nil =>
    obtain rfl : config = config' := by simpa [pure, Except.pure] using h
    rfl
  | cons call calls ih =>
    rw [List.foldlM_cons] at h
    obtain ⟨config₁, h₁, h₂⟩ := except_bind_ok.mp h
    rw [ih h₂, apply_frame h₁]
    rfl

/-- A run stays inside the array exactly if each `stop` has room. -/
theorem foldlM_apply_ok_iff {config : BenchmarkConfiguration} (hinv : LogInv config)
    (calls : List SetCall) :
    (∃ config', calls.foldlM SetCall.apply config = .ok config') ↔
      StopsHaveRoom config.dataSize config.dataIndex (calls.map SetCall.kind) := by
  induction calls generalizing config with
  | nil => exact ⟨fun _ => trivial, fun _ => ⟨config, rfl⟩⟩
  | cons call calls ih =>
    rw [List.map_cons, StopsHaveRoom, List.foldlM_cons]
    constructor
    · rintro ⟨config', h⟩
      obtain ⟨config₁, h₁, h₂⟩ := except_bind_ok.mp h
      have hroom : call.kind = .stop → config.dataIndex < config.dataSize := by
        intro hkind
        by_contra hfull
        rw [apply_of_no_room hinv hkind hfull] at h₁
        cases h₁
      have hrest := (ih (hinv.apply h₁)).mp ⟨config', h₂⟩
      rw [apply_index hinv h₁, apply_frame h₁] at hrest
      exact ⟨hroom, hrest⟩
    · rintro ⟨hroom, hrest⟩
      obtain ⟨config₁, h₁⟩ : ∃ config₁, call.apply config = .ok config₁ := by
        rcases apply_of_room hinv hroom with ⟨_, _, _, _, _, _, ha⟩ | ⟨_, _, ha⟩ <;> exact ⟨_, ha⟩
      rw [h₁, except_ok_bind]
      refine (ih (hinv.apply h₁)).mpr ?_
      rw [apply_index hinv h₁, apply_frame h₁]
      exact hrest

theorem foldlM_perform_fst (calls : List (L × SetCall)) (config : BenchmarkConfiguration)
    (writer : ℕ → Option (L × SetCall)) :
    (calls.foldlM perform (config, writer)).map Prod.fst =
      (calls.map Prod.snd).foldlM SetCall.apply config := by
  induction calls generalizing config writer with
  | nil => rfl
  | cons x calls ih =>
    rw [List.foldlM_cons, List.map_cons, List.foldlM_cons, perform]
    cases hx : x.2.apply config with
    | error e => rfl
    | ok config₁ => exact ih config₁ _

theorem foldlM_apply_of_perform {calls : List (L × SetCall)} {config config' : BenchmarkConfiguration}
    {writer writer' : ℕ → Option (L × SetCall)}
    (h : calls.foldlM perform (config, writer) = .ok (config', writer')) :
    (calls.map Prod.snd).foldlM SetCall.apply config = .ok config' := by
  rw [← foldlM_perform_fst calls config writer, h]
  rfl

/-- A run keeps the record. -/
theorem Recorded.run {calls : List (L × SetCall)} {config config' : BenchmarkConfiguration}
    {writer writer' : ℕ → Option (L × SetCall)} {rc2 : ℕ → Int32}
    (h : Recorded config writer rc2)
    (hrun : calls.foldlM UbenchAgent.perform (config, writer) = .ok (config', writer')) :
    Recorded config' writer'
      (rc2Run config.dataSize config.dataIndex rc2 (calls.map Prod.snd)) := by
  induction calls generalizing config writer rc2 with
  | nil =>
    obtain ⟨rfl, rfl⟩ : config = config' ∧ writer = writer' := by
      simpa [pure, Except.pure] using hrun
    exact h
  | cons x calls ih =>
    rw [List.foldlM_cons] at hrun
    obtain ⟨⟨config₁, writer₁⟩, h₁, h₂⟩ := except_bind_ok.mp hrun
    obtain ⟨config₂, happly, heq⟩ := except_bind_ok.mp h₁
    obtain ⟨rfl, -⟩ : config₂ = config₁ ∧ recordWriter config writer x = writer₁ := by
      simpa using heq
    have := ih (h.perform h₁) h₂
    rw [apply_index h.inv happly, apply_frame happly] at this
    exact this

/-- `l` lists the writers of the visible slots. -/
def Shows (config : BenchmarkConfiguration) (writer : ℕ → Option (L × SetCall))
    (l : List (L × SetCall)) : Prop :=
  config.dataIndex = l.length ∧ ∀ i, i < l.length → writer i = l[i]?

theorem Shows.perform {config : BenchmarkConfiguration} {writer : ℕ → Option (L × SetCall)}
    {l : List (L × SetCall)} (hinv : LogInv config) (h : Shows config writer l)
    (x : L × SetCall) :
    (∃ config' writer' l', UbenchAgent.perform (config, writer) x = .ok (config', writer') ∧
        step config.dataSize l (x.2.act x) = some l' ∧ LogInv config' ∧
        config'.dataSize = config.dataSize ∧ Shows config' writer' l') ∨
      (∃ e, UbenchAgent.perform (config, writer) x = .error e ∧
        step config.dataSize l (x.2.act x) = none) := by
  rcases apply_cases hinv h.1 x.2 x with
    ⟨kept, s, -, hkept, hlt, hslot, -, hstep, ha⟩ | ⟨hreset, hstep, ha⟩ | ⟨-, -, hstep, ha⟩
  · refine .inl ⟨_, _, _, by rw [UbenchAgent.perform, ha]; rfl, hstep, hinv.apply ha, rfl, ?_, ?_⟩
    · simp [BenchmarkConfiguration.withLog]
    · intro i hi
      rw [List.length_append, List.length_singleton] at hi
      rw [recordWriter, hslot]
      by_cases hik : i = kept.length
      · simp [hik]
      · have hi' : i < kept.length := by omega
        have hl : i < l.length := by
          have hsome := hkept i hi'
          rw [List.getElem?_eq_getElem hi'] at hsome
          exact (List.getElem?_eq_some_iff.mp hsome.symm).1
        simp only [Function.update_of_ne hik]
        rw [List.getElem?_append_left hi', hkept i hi']
        exact h.2 i hl
  · refine .inl ⟨_, _, _, by rw [UbenchAgent.perform, ha]; rfl, hstep, hinv.apply ha, rfl, rfl, ?_⟩
    intro i hi
    cases hi
  · exact .inr ⟨_, by rw [UbenchAgent.perform, ha]; rfl, hstep⟩

/-- A run acts on the list of visible writers as the log does. -/
theorem Shows.run {config : BenchmarkConfiguration} {writer : ℕ → Option (L × SetCall)}
    {l : List (L × SetCall)} (hinv : LogInv config) (h : Shows config writer l)
    (calls : List (L × SetCall)) :
    (∃ config' writer' l', calls.foldlM UbenchAgent.perform (config, writer) =
          .ok (config', writer') ∧
        RewindLog.run config.dataSize l (calls.map fun x => x.2.act x) = some l' ∧
        LogInv config' ∧ Shows config' writer' l') ∨
      (∃ e, calls.foldlM UbenchAgent.perform (config, writer) = .error e ∧
        RewindLog.run config.dataSize l (calls.map fun x => x.2.act x) = none) := by
  let R (t : BenchmarkConfiguration × (ℕ → Option (L × SetCall))) (l : List (L × SetCall)) : Prop :=
    LogInv t.1 ∧ t.1.dataSize = config.dataSize ∧ Shows t.1 t.2 l
  have hstep : ∀ t l x, R t l →
      (∃ t' l', UbenchAgent.perform t x = .ok t' ∧
          step config.dataSize l (x.2.act x) = some l' ∧ R t' l') ∨
        (∃ e, UbenchAgent.perform t x = .error e ∧
          step config.dataSize l (x.2.act x) = none) := by
    rintro ⟨c, w⟩ l x ⟨hc, hsize, hl⟩
    rw [← hsize]
    rcases hl.perform hc x with ⟨c', w', l', hp, hs, hc', hsize', hl'⟩ | hfail
    · exact .inl ⟨(c', w'), l', hp, hs, hc', hsize'.trans hsize, hl'⟩
    · exact .inr hfail
  rcases foldlM_simulation (fun x : L × SetCall => x.2.act x) hstep
    (⟨hinv, rfl, h⟩ : R (config, writer) l) with ⟨⟨c', w'⟩, l', hrun, hlog, hc', -, hl'⟩ | hfail
  · exact .inl ⟨c', w', l', hrun, hlog, hc', hl'⟩
  · exact .inr hfail

def SetCall.type : SetCall → Int32
  | .start _ => snapshotTypeStart
  | .stop _ => snapshotTypeEnd
  | .sample userId _ => userId
  | .reset => 0

theorem written_type (config : BenchmarkConfiguration) {call : SetCall} (h : call ≠ .reset)
    (rc2 : Int32) : (call.written config rc2).type = call.type := by
  cases call with
  | start r => simp [SetCall.written, SetCall.fill, ubenchMeasureStart, SetCall.type]
  | stop r => simp [SetCall.written, SetCall.fill, SetCall.type]
  | sample userId r => simp [SetCall.written, SetCall.fill, ubenchMeasureSample, SetCall.type]
  | reset => exact absurd rfl h

section Log

variable {config : BenchmarkConfiguration} {writer : ℕ → Option (L × SetCall)}
  {rc2 : ℕ → Int32} {l : List (L × SetCall)}

theorem Recorded.agree_getElem (h : Recorded config writer rc2) (hs : Shows config writer l)
    {i : ℕ} {s : EventsSnapshot} {x : L × SetCall} (hlog : config.log[i]? = some s)
    (hx : l[i]? = some x) :
    AgreeOn config s (x.2.written config (rc2 i)) ∧ x.2 ≠ .reset := by
  have hi : i < l.length := (List.getElem?_eq_some_iff.mp hx).1
  have hw : writer i = some x := (hs.2 i hi).trans hx
  have hdata : config.data[i]? = some s := by
    rw [← hlog, BenchmarkConfiguration.log, List.getElem?_take_of_lt (by rw [hs.1]; exact hi)]
  exact ⟨h.agree i s x hdata hw, h.writes i x hw⟩

theorem LogInv.length_log (h : LogInv config) : config.log.length = config.dataIndex :=
  UbenchAgent.length_log (by rw [h.length_data]; exact h.index_le)

theorem Recorded.types (h : Recorded config writer rc2) (hs : Shows config writer l) :
    config.log.map (·.type) = l.map fun x => x.2.type := by
  have hlen : config.log.length = l.length := h.inv.length_log.trans hs.1
  refine List.ext_getElem (by simp [hlen]) fun i hi hi' => ?_
  rw [List.length_map] at hi hi'
  rw [List.getElem_map, List.getElem_map]
  obtain ⟨hagree, hreset⟩ := h.agree_getElem hs (List.getElem?_eq_getElem hi)
    (List.getElem?_eq_getElem hi')
  exact hagree.type.trans (written_type config hreset _)

theorem Recorded.resultPairs (h : Recorded config writer rc2) (hs : Shows config writer l) :
    resultPairs config = .ok (Pairing.pairs (fun x : L × SetCall => x.2.type == snapshotTypeStart)
      (fun x => x.2.type == snapshotTypeEnd) none 0 l) := by
  have hle : config.dataIndex ≤ config.data.length := by
    rw [h.inv.length_data]
    exact h.inv.index_le
  rw [resultPairs_eq hle, pairsOf_types, h.types hs, Pairing.pairs_map]

/-- The log looks as if its writers had been called with what they found of `papi_rc2`. -/
theorem Recorded.agree_each (h : Recorded config writer rc2) (hs : Shows config writer l) :
    List.Forall₂ (AgreeOn config) config.log
      (l.zipIdx.map fun x => x.1.2.written config (rc2 x.2)) := by
  have hlen : config.log.length = l.length := h.inv.length_log.trans hs.1
  refine List.forall₂_iff_get.mpr ⟨by simp [hlen], fun i hi hi' => ?_⟩
  have hi'' : i < l.length := hlen ▸ hi
  obtain ⟨hagree, -⟩ := h.agree_getElem hs (List.getElem?_eq_getElem hi)
    (List.getElem?_eq_getElem hi'')
  simp only [List.get_eq_getElem, List.getElem_map, List.getElem_zipIdx, Nat.zero_add]
  exact hagree

/-- Without PAPI the log looks as if nothing but its writers had ever been called. -/
theorem Recorded.agree_log (h : Recorded config writer rc2) (hs : Shows config writer l)
    (hno : config.uses backendPapi = false) :
    List.Forall₂ (AgreeOn config) config.log (l.map fun x => x.2.written config 0) := by
  have hlen : config.log.length = l.length := h.inv.length_log.trans hs.1
  refine List.forall₂_iff_get.mpr ⟨by simp [hlen], fun i hi hi' => ?_⟩
  have hi'' : i < l.length := hlen ▸ hi
  obtain ⟨hagree, -⟩ := h.agree_getElem hs (List.getElem?_eq_getElem hi)
    (List.getElem?_eq_getElem hi'')
  simp only [List.get_eq_getElem, List.getElem_map]
  have hfalse : ¬ config.uses backendPapi = true := fun hu =>
    Bool.false_ne_true (hno.symm.trans hu)
  exact ⟨hagree.type, hagree.timestamp, hagree.threadtime, hagree.resourceUsage,
    hagree.compilations, fun hu => absurd hu hfalse, fun hu => absurd hu hfalse,
    fun hu => absurd hu hfalse⟩

end Log

end UbenchAgent
