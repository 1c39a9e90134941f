import UbenchAgent.ThreadMap
import UbenchAgent.Lib.Run

/-!
# Finished threads

The map is to forget a native thread when it ends.  It is keyed by the Java identifier, but
`thread_map_remove_native_thread` searches by the native one and takes out the first entry
only.  So a native identifier under which two Java threads are registered stays in the map.
-/

namespace UbenchAgent

/-- A call that changes the thread map.  A registration comes with what `realloc` gives. -/
inductive ThreadCall
  | threadStart (javaId nativeId : Int64) (realloc : Option ThreadMapEntry)
  | threadEnd (nativeId : Int64)
  | registerJavaThread (javaId nativeId : Int64) (realloc : Option ThreadMapEntry)
  | registerCurrentJavaThread (javaId currentNativeId : Int64) (realloc : Option ThreadMapEntry)
  deriving DecidableEq, Repr

def ThreadMap.call (map : ThreadMap) : ThreadCall → Except ProcessExit ThreadMap
  | .threadStart j n realloc => jvmtiCallbackOnThreadStart map j n realloc
  | .threadEnd n => .ok (jvmtiCallbackOnThreadEnd map n)
  | .registerJavaThread j n realloc => Prod.snd <$> registerJavaThread map j n realloc
  | .registerCurrentJavaThread j n realloc => Prod.snd <$> registerCurrentJavaThread map j n realloc

def ThreadMap.calls (map : ThreadMap) (cs : List ThreadCall) : Except ProcessExit ThreadMap :=
  cs.foldlM ThreadMap.call map

def ThreadCall.registered : ThreadCall → Option Int64
  | .threadStart _ n _ => some n
  | .threadEnd _ => none
  | .registerJavaThread _ n _ => some n
  | .registerCurrentJavaThread _ n _ => some n

/-- A Java thread resolves to a native identifier, other than the one for unknown threads. -/
def ResolvesTo (map : ThreadMap) (j n : Int64) : Prop :=
  n ≠ ubenchThreadIdInvalid ∧ ubenchThreadsGetNativeId map j = n

/-- After a native thread has ended, no Java thread resolves to it until a registration
names it again. -/
def ForgetsFinished (cs : List ThreadCall) : Prop :=
  ∀ before n after rest map, cs = before ++ .threadEnd n :: after ++ rest →
    (∀ c ∈ after, c.registered ≠ some n) →
    ThreadMap.empty.calls (before ++ .threadEnd n :: after) = .ok map → ∀ j, ¬ ResolvesTo map j n

/-- Whenever a native thread ends, at most one Java thread resolves to it. -/
def EndsUnshared (cs : List ThreadCall) : Prop :=
  ∀ before n rest map, cs = before ++ .threadEnd n :: rest →
    ThreadMap.empty.calls before = .ok map → ∀ j j', ResolvesTo map j n → ResolvesTo map j' n → j = j'

section Call

variable {map map' : ThreadMap} {j n : Int64}

theorem resolvesTo_iff : ResolvesTo map j n ↔ n ≠ ubenchThreadIdInvalid ∧ map.lookup j = some n := by
  rw [ResolvesTo, getNativeId_eq_lookup]
  apply and_congr_right
  intro hn
  cases h : map.lookup j with
  | none => exact iff_of_false (Ne.symm hn) (Option.some_ne_none n).symm
  | some m => rw [Option.getD_some, Option.some_inj]

theorem call_cases {c : ThreadCall} (h : map.call c = .ok map') :
    (∃ j n realloc, c.registered = some n ∧ map' = (threadMapPutJavaThread map j n realloc).2) ∨
      ∃ n, c = .threadEnd n ∧ map' = (threadMapRemoveNativeThread map n).2 := by
  have hregister : ∀ {j n realloc},
      Prod.snd <$> ubenchRegisterJavaThread map j n realloc = .ok map' →
        map' = (threadMapPutJavaThread map j n realloc).2 := by
    intro j n realloc hput
    unfold ubenchRegisterJavaThread at hput
    split at hput
    · cases hput
    · rename_i code map₁ _ heq
      rw [heq]
      exact (Except.ok.inj hput).symm
  cases c with
  | threadStart j n realloc =>
    refine .inl ⟨j, n, realloc, rfl, hregister ?_⟩
    rw [← h, ThreadMap.call, jvmtiCallbackOnThreadStart]
    cases ubenchRegisterJavaThread map j n realloc <;> rfl
  | threadEnd n => exact .inr ⟨n, rfl, (Except.ok.inj h).symm⟩
  | registerJavaThread j n realloc => exact .inl ⟨j, n, realloc, rfl, hregister h⟩
  | registerCurrentJavaThread j n realloc => exact .inl ⟨j, n, realloc, rfl, hregister h⟩

theorem ThreadMap.Inv.call {c : ThreadCall} (hinv : map.Inv) (h : map.call c = .ok map') :
    map'.Inv := by
  rcases call_cases h with ⟨j, n, realloc, -, rfl⟩ | ⟨n, -, rfl⟩
  · exact hinv.put
  · exact hinv.remove

theorem resolvesTo_of_call {c : ThreadCall} (hinv : map.Inv) (h : map.call c = .ok map')
    (hc : c.registered ≠ some n) (hj : ResolvesTo map' j n) : ResolvesTo map j n := by
  rw [resolvesTo_iff] at hj ⊢
  refine ⟨hj.1, ?_⟩
  rcases call_cases h with ⟨k, m, realloc, hm, rfl⟩ | ⟨m, -, rfl⟩
  · have hput : PutsInto map k m realloc _ _ := hinv.putsInto
    by_cases hk : j = k
    · -- The entry of this Java thread can only be the old one.
      by_cases hok : (threadMapPutJavaThread map k m realloc).1 = .ok
      · have hnew := hput.inserted hok
        rw [← hk] at hnew hj
        rw [hj.2] at hnew
        exact absurd (hm.trans hnew.symm) hc
      · rw [hput.unchanged hok] at hj
        exact hj.2
    · rw [← hput.others j hk]
      exact hj.2
  · have hremove : RemovesFrom map m _ _ := hinv.removesFrom
    rcases hremove.codes with hok | hnone
    · obtain ⟨k, -, hk, hothers⟩ := hremove.removed hok
      have hne : j ≠ k := by
        rintro rfl
        rw [hj.2] at hk
        cases hk
      rw [← hothers j hne]
      exact hj.2
    · rw [hremove.unchanged hnone] at hj
      exact hj.2

/-- The end of a native thread takes its identifier out of the map exactly if at most one
Java thread resolves to it. -/
theorem threadEnd_forgets_iff (hinv : map.Inv) :
    (∀ j, ¬ ResolvesTo (jvmtiCallbackOnThreadEnd map n) j n) ↔
      ∀ j j', ResolvesTo map j n → ResolvesTo map j' n → j = j' := by
  have hremove : RemovesFrom map n _ _ := hinv.removesFrom
  change RemovesFrom map n _ (jvmtiCallbackOnThreadEnd map n) at hremove
  rcases hremove.codes with hok | hnone
  · obtain ⟨k, hk, hk', hothers⟩ := hremove.removed hok
    have hgone : ∀ j, ResolvesTo (jvmtiCallbackOnThreadEnd map n) j n ↔
        ResolvesTo map j n ∧ j ≠ k := by
      intro j
      rw [resolvesTo_iff, resolvesTo_iff]
      by_cases hj : j = k
      · rw [hj, hk']
        simp
      · rw [hothers j hj]
        simp [hj]
    constructor
    · intro h j j' hj hj'
      have hall : ∀ i, ResolvesTo map i n → i = k := by
        intro i hi
        by_contra hne
        exact h i ((hgone i).mpr ⟨hi, hne⟩)
      rw [hall j hj, hall j' hj']
    · intro h j hj
      obtain ⟨hj, hne⟩ := (hgone j).mp hj
      exact hne (h j k hj (resolvesTo_iff.mpr ⟨(resolvesTo_iff.mp hj).1, hk⟩))
  · -- Without an entry nothing resolves to `n`, before or after.
    have hnot : ∀ j, ¬ ResolvesTo map j n := by
      intro j hj
      obtain ⟨entry, hfind, hentry⟩ := Option.map_eq_some_iff.mp (resolvesTo_iff.mp hj).2
      exact hremove.enoent_iff.mp hnone entry (KeyedArray.mem_of_find hfind).1 hentry
    rw [hremove.unchanged hnone]
    exact iff_of_true hnot fun j _ hj => absurd hj (hnot j)

end Call

section Calls

variable {map map' : ThreadMap} {n : Int64}

theorem ThreadMap.calls_append {cs ds : List ThreadCall} :
    map.calls (cs ++ ds) = .ok map' ↔ ∃ map₁, map.calls cs = .ok map₁ ∧ map₁.calls ds = .ok map' :=
  foldlM_append_ok

theorem ThreadMap.Inv.calls {cs : List ThreadCall} (hinv : map.Inv) (h : map.calls cs = .ok map') :
    map'.Inv :=
  foldlM_invariant (fun _ _ _ hs hstep => hs.call hstep) hinv h

/-- What resolves to `n` after calls that do not register it did so before them. -/
theorem resolvesTo_of_calls {cs : List ThreadCall} (hinv : map.Inv) (h : map.calls cs = .ok map')
    (hcs : ∀ c ∈ cs, c.registered ≠ some n) {j : Int64} (hj : ResolvesTo map' j n) :
    ResolvesTo map j n := by
  induction cs generalizing map with
  | nil =>
    obtain rfl : map = map' := Except.ok.inj h
    exact hj
  | cons c cs ih =>
    obtain ⟨hc, hcs⟩ := List.forall_mem_cons.mp hcs
    obtain ⟨map₁, hcall, hrest⟩ := except_bind_ok.mp h
    exact resolvesTo_of_call hinv hcall hc (ih (hinv.call hcall) hrest hcs)

/-- A run forgets the native threads that have ended exactly if at most one Java thread
resolves to each of them at its end. -/
theorem forgetsFinished_iff (cs : List ThreadCall) : ForgetsFinished cs ↔ EndsUnshared cs := by
  constructor
  · intro h before n rest map hcs hbefore
    have hinv : map.Inv := ThreadMap.Inv.empty.calls hbefore
    apply (threadEnd_forgets_iff hinv).mp
    apply h before n [] rest
    · rw [hcs, List.append_assoc]
      rfl
    · exact List.forall_mem_nil _
    · exact ThreadMap.calls_append.mpr ⟨map, hbefore, rfl⟩
  · intro h before n after rest map hcs hafter hrun j hj
    obtain ⟨map₁, hbefore, hrun⟩ := ThreadMap.calls_append.mp hrun
    have hinv : map₁.Inv := ThreadMap.Inv.empty.calls hbefore
    obtain ⟨map₂, hend, hrun⟩ := except_bind_ok.mp hrun
    obtain rfl : jvmtiCallbackOnThreadEnd map₁ n = map₂ := Except.ok.inj hend
    have hunshared := h before n (after ++ rest) map₁ (by rw [hcs, List.append_assoc]; rfl) hbefore
    exact (threadEnd_forgets_iff hinv).mpr hunshared j
      (resolvesTo_of_calls hinv.remove hrun hafter hj)

end Calls

/-- Two Java threads are registered under the native thread 5.  When it ends, the second of
them still resolves to it. -/
theorem not_forgetsFinished_shared :
    ¬ ForgetsFinished [.registerJavaThread 1 5 (some ⟨0, 0⟩), .registerJavaThread 2 5 (some ⟨0, 0⟩),
      .threadEnd 5] := by
  intro h
  apply h [.registerJavaThread 1 5 (some ⟨0, 0⟩), .registerJavaThread 2 5 (some ⟨0, 0⟩)] 5 [] []
    ⟨1, 2, [⟨5, 2⟩, ⟨5, 2⟩]⟩ rfl (List.forall_mem_nil _) (by decide) 2
  exact ⟨by decide, by decide⟩

end UbenchAgent
