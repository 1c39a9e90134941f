import UbenchAgent.Lifetimes

/-!
# Failed creations

A creation that throws may have grown the table, counted the new slot and overwritten the
configuration of a free one.  None of this can be seen: without the creations that threw,
every other call responds as before.
-/

namespace UbenchAgent

/-- The entry of the trace is not a `createEventSet` that threw. -/
def kept : Call × Response → Bool
  | (.createEventSet .., .thrown _) => false
  | _ => true

/-- A call in two runs, with the same outcomes of allocations and of PAPI calls.  The growth
of the table in a creation, which the first run may not need, succeeds in the second. -/
inductive SameOutcomes : Call → Call → Prop
  | create (args : CreateArgs) {o o' : CreateOutcomes}
      (setup : o.toSetupOutcomes = o'.toSetupOutcomes) (realloc : o'.realloc = true) :
      SameOutcomes (.createEventSet args o) (.createEventSet args o')
  | destroy (jid : ℤ) : SameOutcomes (.destroyEventSet jid) (.destroyEventSet jid)
  | set {call : Call} (calls : List (ℤ × SetCall)) (h : call.setCalls = some calls) :
      SameOutcomes call call
  | getResults (jid : ℤ) : SameOutcomes (.getResults jid) (.getResults jid)
  | getRawResults (jid : ℤ) : SameOutcomes (.getRawResults jid) (.getRawResults jid)

section Unobservable

variable {hasPapi : Bool} {a a' b : Agent}

/-- In tables that look the same, a creation that succeeds in one succeeds in the other, with
the same id. -/
theorem createEventSet_looks (h : Looks a b) {args : CreateArgs} {o o' : CreateOutcomes} {id : ℤ}
    (hsetup : o.toSetupOutcomes = o'.toSetupOutcomes) (hrealloc : o'.realloc = true)
    (hcreate : createEventSet hasPapi a args o = (a', .ok id)) :
    ∃ b', createEventSet hasPapi b args o' = (b', .ok id) ∧ Looks a' b' := by
  have hacc := (createEventSet_created hcreate).1
  have hacc' : Accepted hasPapi b args o' :=
    ⟨hacc.measurements, hacc.events, .inr hrealloc, hsetup ▸ hacc.configurable⟩
  obtain ⟨a₁, config, heq, -, htable, hview⟩ := createEventSet_accepted hacc
  obtain ⟨b', config', heq', -, htable', hview'⟩ := createEventSet_accepted hacc'
  obtain ⟨rfl, rfl⟩ : a₁ = a' ∧ (a.freeSlot : ℤ) = id := by simpa [heq] using hcreate
  have hslot : a.freeSlot = b.freeSlot := freeSlot_congr h.isNone
  refine ⟨b', by rw [heq', hslot], fun id => ?_⟩
  rw [htable, htable', hslot]
  split_ifs
  · rw [Option.map_some, Option.map_some, hview config .empty, hview' config .empty, hsetup]
  · exact h id

theorem destroyEventSet_looks (h : Looks a b) (jid : ℤ) :
    (destroyEventSet a jid).2 = (destroyEventSet b jid).2 ∧
      Looks (destroyEventSet a jid).1 (destroyEventSet b jid).1 := by
  rcases h.cases jid with ⟨ha, hb⟩ | ⟨config, config', ha, hb, -⟩
  · rw [destroyEventSet_invalid ha, destroyEventSet_invalid hb]
    exact ⟨rfl, h⟩
  · obtain ⟨a', heq, htable⟩ := destroyEventSet_valid ha
    obtain ⟨b', heq', htable'⟩ := destroyEventSet_valid hb
    rw [heq, heq']
    refine ⟨rfl, fun id => ?_⟩
    rw [htable, htable']
    split_ifs
    · rfl
    · exact h id

theorem step_looks (h : Looks a b) {call call' : Call} {response : Response}
    (hsame : SameOutcomes call call') (hstep : a.step hasPapi call = .ok (a', response))
    (hkept : kept (call, response) = true) :
    ∃ b', b.step hasPapi call' = .ok (b', response) ∧ Looks a' b' := by
  cases hsame with
  | create args hsetup hrealloc =>
    rename_i o o'
    cases hcreate : createEventSet hasPapi a args o with
    | mk a₁ result =>
      rw [Agent.step, hcreate] at hstep
      obtain ⟨rfl, rfl⟩ : a₁ = a' ∧ Response.ofId result = response := by simpa using hstep
      cases result with
      | error e => cases hkept
      | ok id =>
        obtain ⟨b', heq, hlooks⟩ := createEventSet_looks h hsetup hrealloc hcreate
        exact ⟨b', by rw [Agent.step, heq], hlooks⟩
  | destroy jid =>
    obtain ⟨hresult, hlooks⟩ := destroyEventSet_looks h jid
    have heq : (destroyEventSet a jid).1 = a' ∧
        Response.ofUnit (destroyEventSet a jid).2 = response := by
      simpa only [Agent.step, Except.ok.injEq, Prod.mk.injEq] using hstep
    obtain ⟨rfl, rfl⟩ := heq
    exact ⟨_, by rw [hresult]; rfl, hlooks⟩
  | set calls hcalls =>
    rw [step_of_setCalls hcalls] at hstep ⊢
    obtain ⟨⟨a₁, result⟩, hwith, heq⟩ := except_bind_ok.mp hstep
    obtain ⟨rfl, rfl⟩ : a₁ = a' ∧ Response.ofUnit result = response := by simpa using heq
    rcases withIds_looks calls h with ⟨a₂, b', result', ha, hb, hlooks⟩ | ⟨f, ha, -⟩
    · obtain ⟨rfl, rfl⟩ : a₂ = a₁ ∧ result' = result := by simpa [ha] using hwith
      exact ⟨b', by rw [hb]; rfl, hlooks⟩
    · rw [ha] at hwith
      cases hwith
  | getResults jid =>
    have hsame := (getResults_looks (h jid)).1
    obtain ⟨result, hresult, heq⟩ := except_bind_ok.mp hstep
    obtain ⟨rfl, rfl⟩ : a = a' ∧ Response.ofResults result = response := by simpa using heq
    exact ⟨b, by rw [Agent.step, ← hsame, hresult]; rfl, h⟩
  | getRawResults jid =>
    have hsame := (getResults_looks (h jid)).2
    obtain ⟨result, hresult, heq⟩ := except_bind_ok.mp hstep
    obtain ⟨rfl, rfl⟩ : a = a' ∧ Response.ofResults result = response := by simpa using heq
    exact ⟨b, by rw [Agent.step, ← hsame, hresult]; rfl, h⟩

/-- A creation that threw leaves a table that looks as before. -/
theorem step_dropped (h : Looks a b) {call : Call} {response : Response}
    (hstep : a.step hasPapi call = .ok (a', response)) (hkept : kept (call, response) = false) :
    Looks a' b := by
  have htable : TableStep hasPapi a a' call response := by
    refine step_table ?_ hstep
    cases call <;> first | rfl | cases hkept
  cases htable with
  | rejected valid table =>
    intro id
    rw [table]
    exact h id
  | created | destroyed | read => simp [kept] at hkept
  | served set => cases call <;> simp [kept] at hkept
  | invalid mem => cases call <;> simp [kept, Call.ids, Call.setCalls] at hkept mem

/-- A run and the same run without the creations that threw: the remaining calls respond
alike, and afterwards the tables look the same.  A run ends at its first fault, after which
nothing is defined, so it is the part in front of the fault that is compared. -/
theorem failed_createEventSet_unobservable {calls calls' : List Call}
    {tr : List (Call × Response)} (hrun : run (Agent.step hasPapi) .initial calls = .ok (a, tr))
    (hsame : List.Forall₂ SameOutcomes ((tr.filter kept).map Prod.fst) calls') :
    ∃ a' tr', run (Agent.step hasPapi) .initial calls' = .ok (a', tr') ∧
      tr'.map Prod.snd = (tr.filter kept).map Prod.snd ∧ Looks a a' :=
  run_filter (R := Looks) (fun _ _ _ _ _ h hstep hkept => step_dropped h hstep hkept)
    (fun _ _ _ _ _ _ h hstep hkept hsame => step_looks h hsame hstep hkept)
    (fun _ => rfl) hrun hsame

end Unobservable

/-- An event name that is not recognized takes the slot that the next creation gets. -/
theorem failed_createEventSet_unobservable_unrecognized :
    ∃ a tr a' tr',
      run (Agent.step false) .initial [.createEventSet ⟨1, ["unknown"], []⟩ .success,
        .createEventSet (.wallclock 1) .success, .start [(0, .zero)]] = .ok (a, tr) ∧
      tr.map Prod.snd = [.thrown (.unrecognizedEvent "unknown"), .eventSet 0, .done] ∧
      run (Agent.step false) .initial [.createEventSet (.wallclock 1) .success,
        .start [(0, .zero)]] = .ok (a', tr') ∧
      tr'.map Prod.snd = [.eventSet 0, .done] ∧ Looks a a' := by
  obtain ⟨a, tr, hrun, hresponses, hkept⟩ : ∃ a tr,
      run (Agent.step false) .initial [.createEventSet ⟨1, ["unknown"], []⟩ .success,
        .createEventSet (.wallclock 1) .success, .start [(0, .zero)]] = .ok (a, tr) ∧
      tr.map Prod.snd = [.thrown (.unrecognizedEvent "unknown"), .eventSet 0, .done] ∧
      tr.filter kept = [(.createEventSet (.wallclock 1) .success, .eventSet 0),
        (.start [(0, .zero)], .done)] := ⟨_, _, rfl, rfl, rfl⟩
  have hsame : List.Forall₂ SameOutcomes ((tr.filter kept).map Prod.fst)
      [.createEventSet (.wallclock 1) .success, .start [(0, .zero)]] := by
    rw [hkept]
    exact .cons (.create _ rfl rfl) (.cons (.set _ rfl) .nil)
  obtain ⟨a', tr', hrun', hresponses', hlooks⟩ := failed_createEventSet_unobservable hrun hsame
  exact ⟨a, tr, a', tr', hrun, hresponses, hrun', by rw [hresponses', hkept]; rfl, hlooks⟩

end UbenchAgent
