import UbenchAgent.Components
import UbenchAgent.Lifetimes
import UbenchAgent.Ownership

/-!
# Strings and arrays of the JVM

A native method gives back the strings and arrays that it gets from the JVM, once each.
Over one call this is a condition on a ledger that is empty before it.  `createEventSet`
misses it at the component check only, where the name is still held.  `start`, `stop`,
`sample` and `reset` miss it whenever they throw: the ids are given back after the loop.
-/

namespace UbenchAgent

open Ledger

def Agent.perCall (a : Agent) : Agent := { a with ledger := .empty }

/-- After the call no string and no array is held, and none was released twice. -/
structure JniBalanced (ledger : Ledger Resource) : Prop where
  returned : ∀ x ∈ ledger.held, x.2 ≠ .stringChars ∧ x.2 ≠ .intArray
  once : ledger.misreleased = false

def Call.usesJni : Call → Bool
  | .createEventSet _ _ => true
  | call => call.setCalls.isSome

theorem Resource.owned_iff (k : Resource) : k.owned = true ↔ k ≠ .stringChars ∧ k ≠ .intArray := by
  cases k <;> simp [Resource.owned]

theorem jniBalanced_iff_allOwned {ledger : Ledger Resource} {left : List (ℕ × Resource)}
    (h : Ledger.empty.Extends ledger left) : JniBalanced ledger ↔ AllOwned left := by
  have hheld : ∀ x, x ∈ ledger.held ↔ x ∈ left := by
    intro x
    rw [h.held.mem_iff]
    simp [Ledger.empty]
  constructor
  · intro hbalanced x hx
    rw [Resource.owned_iff]
    exact hbalanced.returned x ((hheld x).mpr hx)
  · intro hall
    refine ⟨?_, h.misreleased⟩
    intro x hx
    rw [← Resource.owned_iff]
    exact hall x ((hheld x).mp hx)

theorem jniBalanced_empty : JniBalanced .empty :=
  (jniBalanced_iff_allOwned (.refl _)).mpr (List.forall_mem_nil _)

/-- The arguments and outcomes with which `createEventSet` throws at the component check: it
gets its slot and its two arrays, and among the names in front of the first one that is not
recognized there are two PAPI events of different components. -/
structure StopsAtComponents (hasPapi : Bool) (a : Agent) (args : CreateArgs)
    (o : CreateOutcomes) : Prop where
  measurements : 0 < args.jmeasurements * 2
  events : args.jeventNames ≠ []
  room : HasRoom a o
  callocData : o.callocData = true
  callocEvents : o.callocEvents = true
  differ : ¬ SameComponent hasPapi o.papi (args.known hasPapi o.papi)

section Create

variable {hasPapi : Bool} {args : CreateArgs}

theorem configure_jniBalanced {o : SetupOutcomes} {size : ℕ} {config : BenchmarkConfiguration} :
    JniBalanced (configure hasPapi o size args config .empty).ledger ↔
      (o.callocData = false ∨ o.callocEvents = false ∨
        SameComponent hasPapi o.papi (args.known hasPapi o.papi)) := by
  by_cases hc : (configure hasPapi o size args config .empty).thrown = none
  · have hconf := configure_thrown.mp hc
    rw [jniBalanced_iff_allOwned (configure_ledger .empty hc).1]
    refine iff_of_true (allOwned_resources _) (.inr (.inr ?_))
    rw [known_eq hconf.recognized]
    exact hconf.sameComponent
  · obtain ⟨left, hleft, -, hall⟩ := configure_ledger_thrown .empty hc
    exact (jniBalanced_iff_allOwned hleft).trans hall

theorem fillSlot_ledger (a : Agent) (eventsetId : ℕ) (eventset : Eventset) (size : ℕ)
    (o : CreateOutcomes) :
    (fillSlot hasPapi a eventsetId eventset size args o).1.ledger =
      (configure hasPapi o.toSetupOutcomes size args eventset.config a.ledger).ledger := by
  unfold fillSlot
  dsimp only
  cases (configure hasPapi o.toSetupOutcomes size args eventset.config a.ledger).thrown <;> rfl

theorem createEventSet_jniBalanced (a : Agent) (o : CreateOutcomes) :
    JniBalanced (createEventSet hasPapi a.perCall args o).1.ledger ↔
      ¬ StopsAtComponents hasPapi a args o := by
  by_cases hearly : args.jmeasurements * 2 ≤ 0 ∨ args.jeventNames = [] ∨ ¬ HasRoom a.perCall o
  · obtain ⟨e, heq⟩ := createEventSet_early hasPapi hearly
    rw [heq]
    refine iff_of_true jniBalanced_empty ?_
    intro hstops
    rcases hearly with hmeas | hevents | hroom
    · exact Int32.not_lt.mpr hmeas hstops.measurements
    · exact hstops.events hevents
    · exact hroom hstops.room
  · simp only [not_or, not_not, Int32.not_le] at hearly
    obtain ⟨hmeas, hevents, hroom⟩ := hearly
    obtain ⟨eventsets, eventset, -, -, -, heq⟩ := createEventSet_slot hasPapi hmeas hevents hroom
    rw [heq, fillSlot_ledger]
    refine configure_jniBalanced.trans ?_
    constructor
    · rintro (hdata | hcalloc | hsame) hstops
      · rw [hstops.callocData] at hdata
        cases hdata
      · rw [hstops.callocEvents] at hcalloc
        cases hcalloc
      · exact hstops.differ hsame
    · intro hgoes
      by_contra hno
      simp only [not_or, Bool.not_eq_false] at hno
      obtain ⟨hdata, hcalloc, hdiffer⟩ := hno
      exact hgoes ⟨hmeas, hevents, hroom, hdata, hcalloc, hdiffer⟩

end Create

section Ids

variable {a a' : Agent} {calls : List (ℤ × SetCall)} {result : Except MeasurementException Unit}

theorem forEachEventset_ledger (h : forEachEventset calls a = .ok (a', result)) :
    a'.ledger = a.ledger := by
  induction calls generalizing a with
  | nil =>
    cases h
    rfl
  | cons x rest ih =>
    obtain ⟨id, call⟩ := x
    rw [forEachEventset] at h
    cases hc : a.validConfig id with
    | none =>
      rw [hc] at h
      cases h
      rfl
    | some config =>
      rw [hc] at h
      obtain ⟨config', -, h⟩ := except_bind_ok.mp h
      exact (ih h).trans rfl

theorem withIds_jniBalanced (h : withIds a.perCall calls = .ok (a', result)) :
    JniBalanced a'.ledger ↔ ∀ x ∈ calls, (a.validConfig x.1).isSome = true := by
  unfold withIds at h
  split_ifs at h with hempty
  · cases h
    rw [List.length_eq_zero_iff.mp hempty]
    exact iff_of_true jniBalanced_empty (List.forall_mem_nil _)
  · obtain ⟨⟨a₁, result₁⟩, hloop, h⟩ := except_bind_ok.mp h
    have hkept := forEachEventset_ledger hloop
    have hids := (Extends.refl (Ledger.empty (κ := Resource))).acquire .intArray
    rcases (forEachEventset_result hloop).2 with ⟨rfl, hlive⟩ | ⟨rfl, x, hx, hdead⟩
    · cases h
      dsimp only
      rw [hkept]
      refine iff_of_true ?_ hlive
      exact (jniBalanced_iff_allOwned (hids.release .empty (.refl _))).mpr (List.forall_mem_nil _)
    · cases h
      rw [hkept]
      refine iff_of_false ?_ ?_
      · intro hbalanced
        exact (hbalanced.returned _ List.mem_cons_self).2 rfl
      · intro hlive
        have hsome := hlive x hx
        rw [show a.validConfig x.1 = none from hdead] at hsome
        cases hsome

end Ids

/-- The condition on a call and on the table before it under which the call gives back all
that it gets from the JVM. -/
def GivesBack (hasPapi : Bool) (a : Agent) : Call → Prop
  | .createEventSet args o => ¬ StopsAtComponents hasPapi a args o
  | call => ∀ id ∈ call.ids, (a.validConfig id).isSome = true

theorem givesBack_of_setCalls {hasPapi : Bool} {a : Agent} {call : Call}
    {calls : List (ℤ × SetCall)} (h : call.setCalls = some calls) :
    GivesBack hasPapi a call ↔ ∀ x ∈ calls, (a.validConfig x.1).isSome = true := by
  have hids : GivesBack hasPapi a call ↔ ∀ id ∈ call.ids, (a.validConfig id).isSome = true := by
    cases call with
    | createEventSet args o => cases h
    | _ => exact Iff.rfl
  rw [hids, Call.ids_of_setCalls h, List.forall_mem_map]

/-- A call that returns or throws gives back every string and every array once, exactly if it
does not throw at the component check and every id names an event set. -/
theorem jniBalanced_iff {hasPapi : Bool} {a a' : Agent} {call : Call} {response : Response}
    (hcall : call.usesJni = true) (hstep : a.perCall.step hasPapi call = .ok (a', response)) :
    JniBalanced a'.ledger ↔ GivesBack hasPapi a call := by
  cases hcalls : call.setCalls with
  | none =>
    cases call with
    | createEventSet args o =>
      cases hstep
      exact createEventSet_jniBalanced a o
    | start | stop | sample | reset => cases hcalls
    | _ => cases hcall
  | some calls =>
    rw [step_of_setCalls hcalls] at hstep
    obtain ⟨⟨a₁, result⟩, hwith, heq⟩ := except_bind_ok.mp hstep
    cases heq
    rw [givesBack_of_setCalls hcalls]
    exact withIds_jniBalanced hwith

/-- An exit of the setup of PAPI. -/
theorem jniBalanced_papiFailed :
    ∃ a', Agent.initial.perCall.step true (.createEventSet .instructions
          { CreateOutcomes.success with papiAssign := -1 }) =
        .ok (a', .thrown (.papiFailed "PAPI_assign_eventset_component" (-1))) ∧
      JniBalanced a'.ledger := by
  obtain ⟨a', hstep⟩ : ∃ a', Agent.initial.perCall.step true (.createEventSet .instructions
        { CreateOutcomes.success with papiAssign := -1 }) =
      .ok (a', .thrown (.papiFailed "PAPI_assign_eventset_component" (-1))) := ⟨_, rfl⟩
  refine ⟨a', hstep, (jniBalanced_iff rfl hstep).mpr ?_⟩
  have hsame : SameComponent true .permissive
      (CreateArgs.instructions.known true .permissive) := by
    rw [show CreateArgs.instructions.known true .permissive = ["PAPI_TOT_INS"] by decide]
    intro name hname name' hname' _ _
    rw [List.mem_singleton.mp hname, List.mem_singleton.mp hname']
  unfold GivesBack
  intro hstops
  exact hstops.differ hsame

/-- The ids of a `start` that throws are not given back, nor is the name at which
`createEventSet` finds another component. -/
theorem not_jniBalanced_thrown :
    (∃ a', Agent.initial.perCall.step true (.start [(0, .zero)]) =
        .ok (a', .thrown .invalidEventSetId) ∧ ¬ JniBalanced a'.ledger) ∧
      ∃ a', Agent.initial.perCall.step true (.createEventSet .alternating
          { CreateOutcomes.success with papi := .alternating }) =
        .ok (a', .thrown .papiComponentsDiffer) ∧ ¬ JniBalanced a'.ledger := by
  refine ⟨⟨_, rfl, fun h => ?_⟩, ⟨_, rfl, fun h => ?_⟩⟩
  · exact (h.returned (0, .intArray) (by decide)).2 rfl
  · exact (h.returned (6, .stringChars) (by decide)).1 rfl

end UbenchAgent
