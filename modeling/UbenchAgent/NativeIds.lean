import UbenchAgent.FinishedThreads

/-!
# Native identifiers in Java

`NativeThreads.getNativeId` finds out from the identifier -1 that a thread is not known.  But
`registerJavaThread` takes any identifier, so -1 may be that of a thread that is known.
-/

namespace UbenchAgent

open KeyedArray

abbrev invalidThreadId : Int64 := -1

structure JavaThread where
  id : Int64
  text : String
  deriving DecidableEq, Repr

structure NoSuchElementException where
  message : String
  deriving DecidableEq, Repr

def nativeThreadsGetNativeId (map : ThreadMap) (javaThreadId : Int64) : Int64 :=
  let nativeThreadId := ubenchThreadsGetNativeId map javaThreadId
  if nativeThreadId = ubenchThreadIdInvalid then invalidThreadId else nativeThreadId

def getNativeId (map : ThreadMap) (thread : JavaThread) : Except NoSuchElementException Int64 :=
  let res := nativeThreadsGetNativeId map thread.id
  if res = invalidThreadId then
    .error ⟨s!"Thread {thread.text} is not known to the C agent."⟩
  else .ok res

def ThreadCall.target : ThreadCall → Option (Int64 × Int64)
  | .threadStart j n _ => some (j, n)
  | .threadEnd _ => none
  | .registerJavaThread j n _ => some (j, n)
  | .registerCurrentJavaThread j n _ => some (j, n)

def returnedTrue : Except ProcessExit (Bool × ThreadMap) → Bool
  | .ok (result, _) => result
  | .error _ => false

def ThreadCall.succeeds (map : ThreadMap) : ThreadCall → Bool
  | .threadStart j n realloc => returnedTrue (ubenchRegisterJavaThread map j n realloc)
  | .threadEnd _ => false
  | .registerJavaThread j n realloc =>
    returnedTrue (UbenchAgent.registerJavaThread map j n realloc)
  | .registerCurrentJavaThread j n realloc =>
    returnedTrue (UbenchAgent.registerCurrentJavaThread map j n realloc)

/-- The map, and the registrations that returned true, the latest first. -/
structure Registrations where
  map : ThreadMap
  successes : List (Int64 × Int64)

def Registrations.call (s : Registrations) (c : ThreadCall) : Except ProcessExit Registrations := do
  let map ← s.map.call c
  return ⟨map, if c.succeeds s.map then c.target.toList ++ s.successes else s.successes⟩

def registrations (cs : List ThreadCall) : Except ProcessExit Registrations :=
  cs.foldlM Registrations.call ⟨.empty, []⟩

def Registrations.latest (s : Registrations) (j : Int64) : Option Int64 :=
  (s.successes.find? fun success => success.1 == j).map Prod.snd

/-- `getNativeId` throws exactly if the thread has no entry, and otherwise gives what the
registration was given. -/
structure Registrations.Faithful (s : Registrations) : Prop where
  throws_iff : ∀ thread : JavaThread, (∃ e, getNativeId s.map thread = .error e) ↔
    ∀ entry ∈ s.map.valid, entry.javaId ≠ thread.id
  returns : ∀ thread : JavaThread, (∃ entry ∈ s.map.valid, entry.javaId = thread.id) →
    ∃ n, getNativeId s.map thread = .ok n ∧ s.latest thread.id = some n

def FaithfulRun (cs : List ThreadCall) : Prop :=
  ∀ before after s, cs = before ++ after → registrations before = .ok s → s.Faithful

/-- The native identifier -1 is registered only for a Java thread that has an entry, unless
the process ends. -/
def RegistersValid (cs : List ThreadCall) : Prop :=
  ∀ before c after s s' j, cs = before ++ c :: after → registrations before = .ok s →
    s.call c = .ok s' → c.target = some (j, ubenchThreadIdInvalid) →
      ∃ entry ∈ s.map.valid, entry.javaId = j

section Call

variable {map : ThreadMap} {s s' : Registrations} {c : ThreadCall}

theorem known_iff_lookup (map : ThreadMap) (j : Int64) :
    (∃ entry ∈ map.valid, entry.javaId = j) ↔ ∃ n, map.lookup j = some n := by
  rw [← Option.isSome_iff_exists, ThreadMap.lookup, Option.isSome_map, ← Option.ne_none_iff_isSome,
    Ne, find_eq_none, not_not, List.mem_map]

theorem getNativeId_throws {thread : JavaThread}
    (h : (map.lookup thread.id).getD ubenchThreadIdInvalid = ubenchThreadIdInvalid) :
    ∃ e, getNativeId map thread = .error e := by
  unfold getNativeId nativeThreadsGetNativeId
  rw [getNativeId_eq_lookup, h]
  exact ⟨_, rfl⟩

theorem getNativeId_known {thread : JavaThread} {n : Int64} (h : map.lookup thread.id = some n)
    (hn : n ≠ ubenchThreadIdInvalid) : getNativeId map thread = .ok n := by
  unfold getNativeId nativeThreadsGetNativeId
  rw [getNativeId_eq_lookup, h, Option.getD_some]
  dsimp only
  rw [if_neg hn, if_neg hn]

theorem register_cases {map' : ThreadMap} {j n : Int64} {realloc : Option ThreadMapEntry}
    {result : Bool} (hinv : map.Inv)
    (h : ubenchRegisterJavaThread map j n realloc = .ok (result, map')) :
    (result = false ∧ map' = map ∧ ∃ entry ∈ map.valid, entry.javaId = j) ∨
      (result = true ∧ (¬ ∃ entry ∈ map.valid, entry.javaId = j) ∧ map'.lookup j = some n ∧
        ∀ k, k ≠ j → map'.lookup k = map.lookup k) := by
  have hput : PutsInto map j n realloc _ _ := hinv.putsInto
  unfold ubenchRegisterJavaThread at h
  split at h
  · cases h
  · next code map₁ hmemory heq =>
    rw [heq] at hput
    obtain ⟨rfl, rfl⟩ := Prod.mk.inj (Except.ok.inj h)
    rcases hput.codes with rfl | rfl | rfl
    · refine .inr ⟨rfl, ?_, hput.inserted rfl, hput.others⟩
      intro hknown
      cases hput.eexist_iff.mpr hknown
    · have hsame : map₁ = map := hput.unchanged (by dsimp only; decide)
      exact .inl ⟨rfl, hsame, hput.eexist_iff.mp rfl⟩
    · exact absurd rfl hmemory

inductive CallEffect (s : Registrations) (c : ThreadCall) (s' : Registrations) : Prop
  | known (j n : Int64) (target : c.target = some (j, n))
      (entry : ∃ entry ∈ s.map.valid, entry.javaId = j) (same : s' = s)
  | added (j n : Int64) (target : c.target = some (j, n))
      (entry : ¬ ∃ entry ∈ s.map.valid, entry.javaId = j) (lookup : s'.map.lookup j = some n)
      (others : ∀ k, k ≠ j → s'.map.lookup k = s.map.lookup k)
      (successes : s'.successes = (j, n) :: s.successes)
  | removed (target : c.target = none) (successes : s'.successes = s.successes)
      (lookup : ∀ k n, s'.map.lookup k = some n → s.map.lookup k = some n)

theorem CallEffect.register {j n : Int64} {realloc : Option ThreadMapEntry} {map' : ThreadMap}
    (hinv : s.map.Inv) (htarget : c.target = some (j, n))
    (hsucceeds : c.succeeds s.map = returnedTrue (ubenchRegisterJavaThread s.map j n realloc))
    (h : Prod.snd <$> ubenchRegisterJavaThread s.map j n realloc = .ok map') :
    CallEffect s c
      ⟨map', if c.succeeds s.map then c.target.toList ++ s.successes else s.successes⟩ := by
  rw [hsucceeds]
  cases hregister : ubenchRegisterJavaThread s.map j n realloc with
  | error e =>
    rw [hregister] at h
    cases h
  | ok response =>
    obtain ⟨result, map₁⟩ := response
    rw [hregister] at h
    obtain rfl : map₁ = map' := Except.ok.inj h
    rcases register_cases hinv hregister with ⟨rfl, rfl, hknown⟩ | ⟨rfl, hnew, hlookup, hothers⟩
    · exact .known j n htarget hknown rfl
    · refine .added j n htarget hnew hlookup hothers ?_
      rw [htarget]
      rfl

theorem callEffect (hinv : s.map.Inv) (h : s.call c = .ok s') : CallEffect s c s' := by
  obtain ⟨map', hcall, hs'⟩ := except_bind_ok.mp h
  obtain rfl := Except.ok.inj hs'
  cases c with
  | threadStart j n realloc =>
    apply CallEffect.register hinv rfl rfl
    rw [← hcall, ThreadMap.call, jvmtiCallbackOnThreadStart]
    cases ubenchRegisterJavaThread s.map j n realloc <;> rfl
  | threadEnd n =>
    obtain rfl : jvmtiCallbackOnThreadEnd s.map n = map' := Except.ok.inj hcall
    have hremove : RemovesFrom s.map n _ (jvmtiCallbackOnThreadEnd s.map n) := hinv.removesFrom
    refine .removed rfl rfl fun k m hlookup => ?_
    rcases hremove.codes with hok | hnone
    · obtain ⟨j, -, hgone, hothers⟩ := hremove.removed hok
      by_cases hk : k = j
      · rw [hk] at hlookup
        exact absurd (hlookup.symm.trans hgone) (Option.some_ne_none m)
      · rw [← hothers k hk]
        exact hlookup
    · rw [← hremove.unchanged hnone]
      exact hlookup
  | registerJavaThread j n realloc => exact CallEffect.register hinv rfl rfl hcall
  | registerCurrentJavaThread j n realloc => exact CallEffect.register hinv rfl rfl hcall

theorem Registrations.call_inv (hinv : s.map.Inv) (h : s.call c = .ok s') : s'.map.Inv := by
  obtain ⟨map', hcall, hs'⟩ := except_bind_ok.mp h
  obtain rfl := Except.ok.inj hs'
  exact hinv.call hcall

end Call

structure Registrations.Inv (s : Registrations) : Prop where
  map : s.map.Inv
  latest : ∀ j n, s.map.lookup j = some n → s.latest j = some n

section Runs

variable {s s' : Registrations} {c : ThreadCall}

theorem latest_cons {j n : Int64} (hs' : s'.successes = (j, n) :: s.successes) (k : Int64) :
    s'.latest k = if k = j then some n else s.latest k := by
  rw [Registrations.latest, hs', List.find?_cons]
  split_ifs with hk
  · rw [hk, beq_self_eq_true]
    rfl
  · rw [beq_false_of_ne (Ne.symm hk)]
    rfl

theorem Registrations.Inv.call (h : s.Inv) (hcall : s.call c = .ok s') : s'.Inv := by
  refine ⟨call_inv h.map hcall, fun k m hlookup => ?_⟩
  cases callEffect h.map hcall with
  | known j n htarget hentry hsame =>
    rw [hsame] at hlookup ⊢
    exact h.latest k m hlookup
  | added j n htarget hentry hadded hothers hsuccesses =>
    rw [latest_cons hsuccesses]
    split_ifs with hk
    · rw [hk, hadded] at hlookup
      exact hlookup
    · rw [hothers k hk] at hlookup
      exact h.latest k m hlookup
  | removed htarget hsuccesses hremoved =>
    rw [Registrations.latest, hsuccesses]
    exact h.latest k m (hremoved k m hlookup)

theorem registrations_inv {cs : List ThreadCall} (h : registrations cs = .ok s) : s.Inv := by
  have hempty : Registrations.Inv ⟨.empty, []⟩ := by
    refine ⟨ThreadMap.Inv.empty, fun j n hlookup => ?_⟩
    cases hlookup
  exact foldlM_invariant (fun _ _ _ hs hstep => hs.call hstep) hempty h

/-- Without -1 in the map the lookup is faithful. -/
theorem Registrations.Inv.faithful (h : s.Inv)
    (hvalid : ∀ j, s.map.lookup j ≠ some ubenchThreadIdInvalid) : s.Faithful := by
  have hreturns : ∀ thread : JavaThread,
      (∃ entry ∈ s.map.valid, entry.javaId = thread.id) →
        ∃ n, getNativeId s.map thread = .ok n ∧ s.latest thread.id = some n := by
    intro thread hknown
    obtain ⟨n, hlookup⟩ := (known_iff_lookup s.map thread.id).mp hknown
    have hn : n ≠ ubenchThreadIdInvalid := by
      rintro rfl
      exact hvalid thread.id hlookup
    exact ⟨n, getNativeId_known hlookup hn, h.latest thread.id n hlookup⟩
  refine ⟨fun thread => ⟨?_, ?_⟩, hreturns⟩
  · rintro ⟨e, hthrow⟩ entry hmem hentry
    obtain ⟨n, hget, -⟩ := hreturns thread ⟨entry, hmem, hentry⟩
    rw [hthrow] at hget
    cases hget
  · intro hunknown
    have hnone : s.map.lookup thread.id = none := by
      rw [← Option.not_isSome_iff_eq_none, Option.isSome_iff_exists, ← known_iff_lookup]
      rintro ⟨entry, hmem, hentry⟩
      exact hunknown entry hmem hentry
    apply getNativeId_throws
    rw [hnone, Option.getD_none]

/-- A thread that is registered under -1 is taken for one that is not known. -/
theorem not_faithful_of_invalid {j : Int64} (h : s.map.lookup j = some ubenchThreadIdInvalid) :
    ¬ s.Faithful := by
  intro hfaithful
  have hknown := (known_iff_lookup s.map j).mpr ⟨_, h⟩
  obtain ⟨n, hget, -⟩ := hfaithful.returns ⟨j, ""⟩ hknown
  have hinvalid : (s.map.lookup (JavaThread.mk j "").id).getD ubenchThreadIdInvalid =
      ubenchThreadIdInvalid := by
    dsimp only
    rw [h, Option.getD_some]
  obtain ⟨e, hthrow⟩ := getNativeId_throws hinvalid
  rw [hthrow] at hget
  cases hget

theorem lookup_ne_invalid {cs : List ThreadCall} (hcs : RegistersValid cs)
    {before after : List ThreadCall} (hsplit : cs = before ++ after)
    (h : registrations before = .ok s) : ∀ j, s.map.lookup j ≠ some ubenchThreadIdInvalid := by
  refine foldlM_prefix_invariant
    (P := fun s => ∀ j, s.map.lookup j ≠ some ubenchThreadIdInvalid) ?_ ?_ hsplit h
  · intro j hlookup
    cases hlookup
  intro before c after s s' hsplit hbefore hvalid hcall k hlookup
  cases callEffect (registrations_inv hbefore).map hcall with
  | known j n htarget hentry hsame =>
    rw [hsame] at hlookup
    exact hvalid k hlookup
  | added j n htarget hentry hadded hothers hsuccesses =>
    by_cases hk : k = j
    · rw [hk, hadded] at hlookup
      rw [Option.some_inj.mp hlookup] at htarget
      exact hentry (hcs before c after s s' j hsplit hbefore hcall htarget)
    · rw [hothers k hk] at hlookup
      exact hvalid k hlookup
  | removed htarget hsuccesses hremoved => exact hvalid k (hremoved k _ hlookup)

/-- A run is faithful exactly if -1 is registered only for threads that have an entry. -/
theorem faithfulRun_iff (cs : List ThreadCall) : FaithfulRun cs ↔ RegistersValid cs := by
  constructor
  · intro h before c after s s' j hsplit hbefore hcall htarget
    by_contra hentry
    have hfaithful := h (before ++ [c]) after s' (by rw [hsplit, List.append_assoc]; rfl)
      (foldlM_concat_ok.mpr ⟨s, hbefore, hcall⟩)
    cases callEffect (registrations_inv hbefore).map hcall with
    | known k n hknown hold hsame =>
      obtain ⟨rfl, -⟩ := Prod.mk.inj (Option.some_inj.mp (htarget.symm.trans hknown))
      exact hentry hold
    | added k n hadded hnew hlookup hothers hsuccesses =>
      obtain ⟨rfl, rfl⟩ := Prod.mk.inj (Option.some_inj.mp (htarget.symm.trans hadded))
      exact not_faithful_of_invalid hlookup hfaithful
    | removed hnone hsuccesses hremoved =>
      rw [htarget] at hnone
      cases hnone
  · intro h before after s hsplit hbefore
    exact (registrations_inv hbefore).faithful (lookup_ne_invalid h hsplit hbefore)

end Runs

/-- A Java thread that is registered under the identifier -1. -/
theorem not_faithfulRun_invalid :
    ¬ FaithfulRun [.registerJavaThread 1 ubenchThreadIdInvalid (some ⟨0, 0⟩)] := by
  intro h
  have hfaithful := h _ [] _ (List.append_nil _).symm rfl
  obtain ⟨n, hget, -⟩ := hfaithful.returns ⟨1, "Thread[main]"⟩ ⟨⟨-1, 1⟩, by decide, rfl⟩
  cases hget

end UbenchAgent
