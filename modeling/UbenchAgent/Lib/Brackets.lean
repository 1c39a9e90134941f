import UbenchAgent.Lib.RewindLog
import UbenchAgent.Lib.Pairing
import Mathlib.Algebra.Order.Ring.Int
import Mathlib.Algebra.Group.Nat.Even
import Mathlib.Data.List.Forall2
import Mathlib.Data.List.Induction

/-!
# Brackets in a log that steps back

A bracket is a start, some samples and a stop, all of one owner.  Brackets are written
one after another to a log of capacity `cap`: the start and the samples overwrite when
the log is full, the stop only appends.  Afterwards the log is scanned for pairs of a
start and the next stop.  `NeverMixes` says for which numbers of samples every stop
finds a slot and every pair is of one owner.
-/

namespace UbenchAgent.Brackets

open RewindLog Pairing

variable {α : Type*}

/-- A start, samples and a stop. -/
structure Bracket (α : Type*) where
  start : α
  samples : List α
  stop : α

namespace Bracket

def entries (b : Bracket α) : List α := b.start :: b.samples ++ [b.stop]

def acts (b : Bracket α) : List (Act α) :=
  (b.start :: b.samples).map .overwrite ++ [.append b.stop]

def last (b : Bracket α) : α := b.samples.getLastD b.start

theorem length_entries (b : Bracket α) : b.entries.length = b.samples.length + 2 := by
  simp [entries]

end Bracket

/-- The numbers of samples for which brackets that find `room` free slots all fit and do not
mix.  As long as a slot is left after the bracket, all is well.  When two slots are left,
each bracket is written over the one before, and its stop finds a slot if its samples come
in pairs.  A bracket that meets the end in any other way has to be the last one. -/
def NeverMixes : ℕ → List ℕ → Prop
  | _, [] => True
  | room, s :: rest =>
    if s + 2 < room then NeverMixes (room - (s + 2)) rest
    else if room = 2 then Even s ∧ ∀ s' ∈ rest, Even s'
    else room ≠ 1 ∧ rest = [] ∧ Even (s + room)

instance NeverMixes.decidable : ∀ (room : ℕ) (counts : List ℕ), Decidable (NeverMixes room counts)
  | _, [] => .isTrue trivial
  | room, s :: rest =>
    have := NeverMixes.decidable (room - (s + 2)) rest
    inferInstanceAs (Decidable (if s + 2 < room then NeverMixes (room - (s + 2)) rest
      else if room = 2 then Even s ∧ ∀ s' ∈ rest, Even s'
      else room ≠ 1 ∧ rest = [] ∧ Even (s + room)))

section Tail

variable {cap : ℕ} {l base : List α}

/-- The log, or the log without its last pair, is `base`, and one pair is free behind it. -/
structure AtEnd (cap : ℕ) (l base : List α) : Prop where
  retract_eq : retract cap l = base
  length_eq : base.length + 2 = cap

theorem AtEnd.self (h : base.length + 2 = cap) : AtEnd cap base base :=
  ⟨retract_of_lt (by omega), h⟩

theorem AtEnd.pair (h : base.length + 2 = cap) (x y : α) : AtEnd cap (base ++ [x, y]) base := by
  refine ⟨?_, h⟩
  rw [retract_full (by simp; omega), List.take_append_of_le_length (by omega),
    List.take_of_length_le (by omega)]

theorem AtEnd.overwrites (h : AtEnd cap l base) (x : α) (xs : List α) :
    ∃ l', run cap l ((x :: xs).map .overwrite) = some l' ∧
      (Even xs.length → l' = base ++ [xs.getLastD x]) ∧
      (¬ Even xs.length → ∃ y, l' = base ++ [y, xs.getLastD x]) := by
  have hlen := h.length_eq
  induction xs using List.reverseRecOn with
  | nil =>
    refine ⟨base ++ [x], ?_, fun _ => rfl, fun hodd => absurd (by simp) hodd⟩
    simp [run_cons, step, h.retract_eq]
  | append_singleton xs z ih =>
    obtain ⟨l', hrun, heven, hodd⟩ := ih
    rw [← List.cons_append, List.map_append, run_append, hrun, Option.bind_some]
    simp only [List.map_cons, List.map_nil, run_cons, step, Option.bind_some, run_nil,
      List.getLastD_concat,
      List.length_append, List.length_singleton, Nat.even_add_one, not_not]
    by_cases hp : Even xs.length
    · rw [heven hp, retract_of_lt (by simp; omega)]
      exact ⟨_, rfl, fun h => absurd hp h, fun _ => ⟨xs.getLastD x, by simp⟩⟩
    · obtain ⟨y, hy⟩ := hodd hp
      rw [hy, (AtEnd.pair hlen _ _).retract_eq]
      exact ⟨_, rfl, fun _ => rfl, fun h => absurd h hp⟩

/-- A bracket written at the end of the log leaves its last entry and its stop there if its
samples come in pairs; otherwise its stop finds no slot. -/
theorem AtEnd.bracket (h : AtEnd cap l base) (b : Bracket α) :
    run cap l b.acts =
      if Even b.samples.length then some (base ++ [b.last, b.stop]) else none := by
  have hlen := h.length_eq
  obtain ⟨l', hrun, heven, hodd⟩ := h.overwrites b.start b.samples
  rw [Bracket.acts, run_append, hrun, Option.bind_some]
  split_ifs with hp
  · rw [heven hp]
    simp only [run_cons, step, run_nil, List.length_append, List.length_singleton]
    rw [if_pos (by omega)]
    simp [Bracket.last]
  · obtain ⟨y, hy⟩ := hodd hp
    rw [hy]
    simp only [run_cons, step, List.length_append, List.length_cons, List.length_nil]
    rw [if_neg (by omega)]
    rfl

/-- Brackets written at the end of the log leave the end of the last one there. -/
theorem AtEnd.brackets (h : AtEnd cap l base) (b : Bracket α) (bs : List (Bracket α)) :
    run cap l ((b :: bs).flatMap Bracket.acts) =
      if ∀ b' ∈ b :: bs, Even b'.samples.length then
        some (base ++ [(bs.getLastD b).last, (bs.getLastD b).stop])
      else none := by
  induction bs generalizing b l with
  | nil => simp [h.bracket]
  | cons b' bs ih =>
    rw [List.flatMap_cons, run_append, h.bracket]
    by_cases hp : Even b.samples.length
    · rw [if_pos hp, Option.bind_some, ih (AtEnd.pair h.length_eq _ _)]
      simp [hp, List.getLast?_cons]
    · rw [if_neg hp, if_neg fun hall => hp (hall b (by simp))]
      rfl

end Tail

section Scan

variable (isStart isEnd : α → Bool) (owner : α → ℕ)

/-- The entries of a bracket are of the kinds that they should be, and of one owner. -/
structure Valid (b : Bracket α) : Prop where
  start : isStart b.start = true
  start_not_end : isEnd b.start = false
  samples_not_start : ∀ x ∈ b.samples, isStart x = false
  samples_not_end : ∀ x ∈ b.samples, isEnd x = false
  stop : isEnd b.stop = true
  stop_not_start : isStart b.stop = false
  samples_owner : ∀ x ∈ b.samples, owner x = owner b.start
  stop_owner : owner b.stop = owner b.start

/-- Each pair of the scan is of one owner. -/
def Unmixed (l : List α) : Prop :=
  ∀ p ∈ pairs isStart isEnd none 0 l, ∀ x y, l[p.1]? = some x → l[p.2]? = some y →
    owner x = owner y

variable {isStart isEnd owner}

variable (isStart) in
theorem opened_some {xs : List α} (he : ∀ x ∈ xs, isEnd x = false) (s i : ℕ) :
    opened isStart isEnd (some s) i xs = some s ∧ pairs isStart isEnd (some s) i xs = [] := by
  induction xs generalizing i with
  | nil => exact ⟨rfl, rfl⟩
  | cons x xs ih =>
    have hx := he x List.mem_cons_self
    obtain ⟨ho, hp⟩ := ih (fun z hz => he z (List.mem_cons_of_mem _ hz)) (i + 1)
    simp [opened, pairs, hx, ho, hp]

theorem scan_entries {b : Bracket α} (h : Valid isStart isEnd owner b) (i : ℕ) :
    opened isStart isEnd none i b.entries = none ∧
      pairs isStart isEnd none i b.entries = [(i, i + b.samples.length + 1)] := by
  obtain ⟨ho, hp⟩ := opened_some isStart h.samples_not_end i (i + 1)
  rw [Bracket.entries, List.cons_append]
  simp only [opened, pairs, h.start, ↓reduceIte, opened_append, pairs_append, ho, hp, h.stop,
    List.nil_append]
  simp [show i + 1 + b.samples.length = i + b.samples.length + 1 by omega]

def whole (bs : List (Bracket α)) : List α := bs.flatMap Bracket.entries

theorem opened_whole {bs : List (Bracket α)} (h : ∀ b ∈ bs, Valid isStart isEnd owner b) (i : ℕ) :
    opened isStart isEnd none i (whole bs) = none := by
  induction bs generalizing i with
  | nil => rfl
  | cons b bs ih =>
    rw [whole, List.flatMap_cons, opened_append, (scan_entries (h b List.mem_cons_self) i).1]
    exact ih (fun b' hb' => h b' (List.mem_cons_of_mem _ hb')) _

/-- The pairs of a prefix of the log are pairs of the log, and there they are of one owner
if they are in the prefix. -/
theorem unmixed_append {l l' : List α} :
    Unmixed isStart isEnd owner (l ++ l') ↔
      Unmixed isStart isEnd owner l ∧
        ∀ p ∈ pairs isStart isEnd (opened isStart isEnd none 0 l) l.length l',
          ∀ x y, (l ++ l')[p.1]? = some x → (l ++ l')[p.2]? = some y → owner x = owner y := by
  have hin : ∀ p ∈ pairs isStart isEnd none 0 l, p.1 < l.length ∧ p.2 < l.length := by
    rintro ⟨s, e⟩ hp
    obtain ⟨hs, -, y, hy, -⟩ := mem_pairs hp
    rcases hs with hs | ⟨-, hlt, -⟩
    · cases hs
    · have he := (List.getElem?_eq_some_iff.mp hy).1
      exact ⟨by omega, by omega⟩
  rw [Unmixed, pairs_append]
  simp only [List.mem_append, or_imp, forall_and, Nat.zero_add]
  refine and_congr_left' (forall₂_congr fun p hp => ?_)
  obtain ⟨h₁, h₂⟩ := hin p hp
  rw [List.getElem?_append_left h₁, List.getElem?_append_left h₂]

theorem unmixed_whole {bs : List (Bracket α)} (h : ∀ b ∈ bs, Valid isStart isEnd owner b) :
    Unmixed isStart isEnd owner (whole bs) := by
  induction bs using List.reverseRecOn with
  | nil => exact fun p hp => absurd hp List.not_mem_nil
  | append_singleton bs b ih =>
    have hbs : ∀ b' ∈ bs, Valid isStart isEnd owner b' := fun b' hb' =>
      h b' (List.mem_append_left _ hb')
    have hb : Valid isStart isEnd owner b := h b (by simp)
    have happ : whole (bs ++ [b]) = whole bs ++ b.entries := by simp [whole]
    rw [happ, unmixed_append, opened_whole hbs, (scan_entries hb _).2]
    refine ⟨ih hbs, fun p hp x y hx hy => ?_⟩
    rw [List.mem_singleton.mp hp] at hx hy
    rw [List.getElem?_append_right (by omega), show (whole bs).length + b.samples.length + 1 -
      (whole bs).length = b.samples.length + 1 by omega] at hy
    simp only [Bracket.entries, List.cons_append, le_refl, List.getElem?_append_right,
      Nat.sub_self, List.getElem?_cons_zero, Option.some.injEq, List.getElem?_cons_succ] at hx hy
    rw [← hx, ← hy, hb.stop_owner]

theorem last_cases (b : Bracket α) :
    (b.samples = [] ∧ b.last = b.start) ∨ b.last ∈ b.samples := by
  cases hs : b.samples with
  | nil => exact .inl ⟨rfl, by simp [Bracket.last, hs]⟩
  | cons x xs =>
    refine .inr ?_
    rw [Bracket.last, hs, List.getLastD_cons]
    cases hl : xs.getLast? with
    | none => simp [List.getLastD_eq_getLast?, hl]
    | some z =>
      rw [List.getLastD_eq_getLast?, hl]
      exact List.mem_cons_of_mem _ (List.mem_of_getLast? hl)

theorem last_not_end {b : Bracket α} (hs : isEnd b.start = false)
    (hx : ∀ x ∈ b.samples, isEnd x = false) : isEnd b.last = false := by
  rcases last_cases b with ⟨-, hlast⟩ | hlast
  · rw [hlast, hs]
  · exact hx _ hlast

theorem unmixed_closed {base : List α} (hopened : opened isStart isEnd none 0 base = none)
    (hbase : Unmixed isStart isEnd owner base) {b : Bracket α}
    (hb : Valid isStart isEnd owner b) :
    Unmixed isStart isEnd owner (base ++ [b.last, b.stop]) := by
  rw [unmixed_append, hopened]
  refine ⟨hbase, ?_⟩
  rcases last_cases b with ⟨-, hlast⟩ | hlast
  · rw [hlast]
    simp [pairs, hb.start, hb.stop, hb.stop_owner]
  · simp [pairs, hb.samples_not_start _ hlast, hb.stop_not_start]

theorem unmixed_open {base : List α} {n : ℕ} {x : α}
    (hopened : opened isStart isEnd none 0 base = some n) (hx : base[n]? = some x)
    {y z : α} (hy : isEnd y = false) (hz : isEnd z = true) :
    Unmixed isStart isEnd owner (base ++ [y, z]) ↔
      Unmixed isStart isEnd owner base ∧ owner x = owner z := by
  have hn := (List.getElem?_eq_some_iff.mp hx).1
  rw [unmixed_append, hopened]
  simp [pairs, hy, hz, List.getElem?_append_left hn, hx]

/-- The last of some brackets ends with an end, and with nothing else that is one; the first
may begin with a sample. -/
theorem getLastD_ends {y z : α} {ys : List α} {bs : List (Bracket α)}
    (hy : ∀ x ∈ y :: ys, isEnd x = false) (hz : isEnd z = true)
    (hbs : ∀ b ∈ bs, Valid isStart isEnd owner b) :
    isEnd (bs.getLastD ⟨y, ys, z⟩).last = false ∧
      isEnd (bs.getLastD ⟨y, ys, z⟩).stop = true := by
  rcases List.mem_cons.mp List.getLastD_mem_cons with heq | hmem
  · rw [heq]
    exact ⟨last_not_end (hy y List.mem_cons_self)
      fun x hx => hy x (List.mem_cons_of_mem _ hx), hz⟩
  · have hv := hbs _ hmem
    exact ⟨last_not_end hv.start_not_end hv.samples_not_end, hv.stop⟩

section End

variable {cap : ℕ} {l base : List α} (b : Bracket α) (bs : List (Bracket α))

/-- If no start waits before the last pair, brackets there do not mix, provided that all their
stops find a slot. -/
theorem AtEnd.closed_iff (h : AtEnd cap l base)
    (hopened : opened isStart isEnd none 0 base = none)
    (hbase : Unmixed isStart isEnd owner base)
    (hvalid : ∀ b' ∈ b :: bs, Valid isStart isEnd owner b') :
    (∃ l', run cap l ((b :: bs).flatMap Bracket.acts) = some l' ∧
        Unmixed isStart isEnd owner l') ↔ ∀ b' ∈ b :: bs, Even b'.samples.length := by
  rw [h.brackets]
  split_ifs with hall
  · exact iff_of_true ⟨_, rfl, unmixed_closed hopened hbase (hvalid _ List.getLastD_mem_cons)⟩ hall
  · exact iff_of_false (fun ⟨l', hl, _⟩ => by cases hl) hall

/-- If a start waits before the last pair, the last bracket there is paired with it. -/
theorem AtEnd.open_iff (h : AtEnd cap l base) {n : ℕ} {x : α}
    (hopened : opened isStart isEnd none 0 base = some n) (hx : base[n]? = some x)
    (hbase : Unmixed isStart isEnd owner base)
    (hy : isEnd (bs.getLastD b).last = false) (hz : isEnd (bs.getLastD b).stop = true) :
    (∃ l', run cap l ((b :: bs).flatMap Bracket.acts) = some l' ∧
        Unmixed isStart isEnd owner l') ↔
      (∀ b' ∈ b :: bs, Even b'.samples.length) ∧ owner x = owner (bs.getLastD b).stop := by
  rw [h.brackets]
  split_ifs with hall
  · rw [and_iff_right hall, ← (unmixed_open hopened hx hy hz).trans (and_iff_right hbase)]
    exact ⟨fun ⟨l', hl, hu⟩ => Option.some.inj hl ▸ hu, fun hu => ⟨_, rfl, hu⟩⟩
  · exact iff_of_false (fun ⟨l', hl, _⟩ => by cases hl) fun hc => hall hc.1

end End

section Criterion

variable {cap room : ℕ} {done bs : List (Bracket α)} {b : Bracket α}

theorem run_acts_of_fits {l : List α} (hfit : l.length + (b.samples.length + 2) ≤ cap) :
    run cap l b.acts = some (l ++ b.entries) := by
  refine run_of_fits ?_ (by rw [Bracket.length_entries]; exact hfit)
  unfold Bracket.acts Bracket.entries
  refine List.rel_append ?_ (.cons (.inr rfl) .nil)
  rw [List.forall₂_map_left_iff]
  exact List.forall₂_same.mpr fun x _ => .inl rfl

theorem opened_whole_start (hdone : ∀ b' ∈ done, Valid isStart isEnd owner b')
    (hb : Valid isStart isEnd owner b) {xs : List α} (hxs : ∀ x ∈ xs, x ∈ b.samples) :
    opened isStart isEnd none 0 (whole done ++ b.start :: xs) = some (whole done).length ∧
      Unmixed isStart isEnd owner (whole done ++ b.start :: xs) := by
  obtain ⟨ho, hp⟩ := opened_some isStart (fun x hx => hb.samples_not_end x (hxs x hx))
    (whole done).length ((whole done).length + 1)
  rw [opened_append, unmixed_append, opened_whole hdone]
  refine ⟨?_, unmixed_whole hdone, ?_⟩
  · rw [Nat.zero_add, opened, if_pos hb.start, ho]
  · rw [pairs, if_pos hb.start, hp]
    exact fun p hmem => absurd hmem List.not_mem_nil

/-- A bracket that is longer than the room and more than two slots has a start that waits
before the last pair: it has to be the last bracket. -/
theorem long_iff (hdone : ∀ b' ∈ done, Valid isStart isEnd owner b')
    (hbs : ∀ b' ∈ b :: bs, Valid isStart isEnd owner b')
    (howner : ∀ b' ∈ bs, owner b.start ≠ owner b'.start)
    (hroom : (whole done).length + room = cap) (hlong : room ≤ b.samples.length + 2)
    (hthree : 3 ≤ room) :
    (∃ l, run cap (whole done) ((b :: bs).flatMap Bracket.acts) = some l ∧
        Unmixed isStart isEnd owner l) ↔ bs = [] ∧ Even (b.samples.length + room) := by
  have hb := hbs b List.mem_cons_self
  -- The samples up to the last pair of slots, and the rest as a bracket at the end.
  obtain ⟨y, ys, hys⟩ := List.exists_cons_of_length_pos
    (l := b.samples.drop (room - 3)) (by rw [List.length_drop]; omega)
  have hylen : ys.length + (room - 2) = b.samples.length := by
    have := congrArg List.length hys
    rw [List.length_drop, List.length_cons] at this
    omega
  have hyend : ∀ x ∈ y :: ys, isEnd x = false := fun x hx =>
    hb.samples_not_end x (List.mem_of_mem_drop (hys ▸ hx))
  have hacts : b.acts = (b.start :: b.samples.take (room - 3)).map .overwrite ++
      (⟨y, ys, b.stop⟩ : Bracket α).acts := by
    rw [Bracket.acts, Bracket.acts, ← List.append_assoc, ← List.map_append, List.cons_append,
      ← hys, List.take_append_drop]
  have hrun : run cap (whole done) ((b.start :: b.samples.take (room - 3)).map .overwrite) =
      some (whole done ++ b.start :: b.samples.take (room - 3)) := by
    refine run_of_fits ?_ (by simp; omega)
    rw [List.forall₂_map_left_iff]
    exact List.forall₂_same.mpr fun x _ => .inl rfl
  obtain ⟨hopened, hbase⟩ := opened_whole_start hdone hb
    fun x (hx : x ∈ b.samples.take (room - 3)) => List.mem_of_mem_take hx
  have hend : AtEnd cap (whole done ++ b.start :: b.samples.take (room - 3))
      (whole done ++ b.start :: b.samples.take (room - 3)) :=
    AtEnd.self (by simp; omega)
  have hsplit : run cap (whole done) ((b :: bs).flatMap Bracket.acts) =
      run cap (whole done ++ b.start :: b.samples.take (room - 3))
        (((⟨y, ys, b.stop⟩ : Bracket α) :: bs).flatMap Bracket.acts) := by
    rw [List.flatMap_cons, hacts, List.append_assoc, run_append, hrun, Option.bind_some,
      List.flatMap_cons]
  have hlast := getLastD_ends hyend hb.stop fun b' hmem => hbs b' (List.mem_cons_of_mem _ hmem)
  have hstart : (whole done ++ b.start :: b.samples.take (room - 3))[(whole done).length]? =
      some b.start := by simp
  rw [hsplit, hend.open_iff ⟨y, ys, b.stop⟩ bs hopened hstart hbase hlast.1 hlast.2]
  cases bs with
  | nil =>
    have hparity : Even ys.length ↔ Even (b.samples.length + room) := by
      rw [Nat.even_iff, Nat.even_iff]
      omega
    simp [hparity, hb.stop_owner]
  | cons b' bs =>
    refine iff_of_false (fun ⟨_, heq⟩ => ?_) (by simp)
    rw [List.getLastD_cons] at heq
    have hmem : bs.getLastD b' ∈ b' :: bs := List.getLastD_mem_cons
    rw [(hbs _ (List.mem_cons_of_mem _ hmem)).stop_owner] at heq
    exact howner _ hmem heq

/-- A bracket with room for its start only is written over the stop of the one before. -/
theorem one_left_false (hdone : ∀ b' ∈ done, Valid isStart isEnd owner b')
    (hbs : ∀ b' ∈ b :: bs, Valid isStart isEnd owner b')
    (howner : ∀ b' ∈ b :: bs, ∀ d ∈ done, owner d.start ≠ owner b'.start)
    (hroom : (whole done).length + 1 = cap) (hcap : 2 ≤ cap) :
    ¬ ∃ l, run cap (whole done) ((b :: bs).flatMap Bracket.acts) = some l ∧
        Unmixed isStart isEnd owner l := by
  have hb := hbs b List.mem_cons_self
  obtain ⟨done', d, rfl⟩ : ∃ done' d, done = done' ++ [d] := by
    refine ⟨_, _, (List.dropLast_append_getLast (l := done) ?_).symm⟩
    rintro rfl
    simp [whole] at hroom
    omega
  have hd : Valid isStart isEnd owner d := hdone d (by simp)
  have hdone' : ∀ b' ∈ done', Valid isStart isEnd owner b' := fun b' hb' =>
    hdone b' (List.mem_append_left _ hb')
  have hwhole : whole (done' ++ [d]) = (whole done' ++ d.start :: d.samples) ++ [d.stop] := by
    simp [whole, Bracket.entries]
  obtain ⟨hopened, hbase⟩ := opened_whole_start hdone' hd fun x (hx : x ∈ d.samples) => hx
  have hlen : (whole done' ++ d.start :: d.samples).length + 2 = cap := by
    rw [hwhole, List.length_append, List.length_singleton] at hroom
    exact hroom
  have hfirst : run cap (whole (done' ++ [d])) [.overwrite b.start] =
      some ((whole done' ++ d.start :: d.samples) ++ [d.stop, b.start]) := by
    rw [run_cons, step, retract_of_lt (by omega), hwhole, List.append_assoc]
    rfl
  have hend := AtEnd.pair hlen d.stop b.start
  cases hs : b.samples with
  | nil =>
    -- Start and stop alone do not fit.
    rintro ⟨l, hrun, -⟩
    have hacts : b.acts = [.overwrite b.start] ++ [.append b.stop] := by
      rw [Bracket.acts, hs]
      rfl
    have hfull : ¬ ((whole done' ++ d.start :: d.samples) ++ [d.stop, b.start]).length < cap := by
      rw [List.length_append, hlen.symm]
      simp
    rw [List.flatMap_cons, hacts, List.append_assoc, run_append, hfirst, Option.bind_some,
      List.singleton_append, run_cons, step, if_neg hfull] at hrun
    cases hrun
  | cons y ys =>
    have hacts : b.acts = [.overwrite b.start] ++ (⟨y, ys, b.stop⟩ : Bracket α).acts := by
      rw [Bracket.acts, hs]
      rfl
    have hyend : ∀ x ∈ y :: ys, isEnd x = false := hs ▸ hb.samples_not_end
    have hlast := getLastD_ends hyend hb.stop fun b' hmem => hbs b' (List.mem_cons_of_mem _ hmem)
    have hother : owner d.start ≠ owner (bs.getLastD ⟨y, ys, b.stop⟩).stop := by
      rcases List.mem_cons.mp List.getLastD_mem_cons with heq | hmem
      · rw [heq, hb.stop_owner]
        exact howner b List.mem_cons_self d (by simp)
      · rw [(hbs _ (List.mem_cons_of_mem _ hmem)).stop_owner]
        exact howner _ (List.mem_cons_of_mem _ hmem) d (by simp)
    have hstart : (whole done' ++ d.start :: d.samples)[(whole done').length]? =
        some d.start := by simp
    rw [List.flatMap_cons, hacts, List.append_assoc]
    simp only [run_append cap _ [Act.overwrite b.start], hfirst, Option.bind_some]
    rw [← List.flatMap_cons, hend.open_iff ⟨y, ys, b.stop⟩ bs hopened hstart hbase hlast.1
      hlast.2]
    exact fun hc => hother hc.2

/-- Brackets behind whole brackets all fit and do not mix exactly if their numbers of samples
are such. -/
theorem run_brackets_iff (hvalid : ∀ b ∈ done ++ bs, Valid isStart isEnd owner b)
    (howner : (done ++ bs).Pairwise fun b b' => owner b.start ≠ owner b'.start)
    (hroom : (whole done).length + room = cap) (hpos : 1 ≤ room) (hcap : 2 ≤ cap) :
    (∃ l, run cap (whole done) (bs.flatMap Bracket.acts) = some l ∧
        Unmixed isStart isEnd owner l) ↔
      NeverMixes room (bs.map fun b => b.samples.length) := by
  induction bs generalizing done room with
  | nil =>
    refine iff_of_true ⟨_, rfl, unmixed_whole fun b hb => hvalid b (by simpa using hb)⟩ trivial
  | cons b bs ih =>
    have hdone : ∀ b' ∈ done, Valid isStart isEnd owner b' := fun b' hb' =>
      hvalid b' (List.mem_append_left _ hb')
    have hbs : ∀ b' ∈ b :: bs, Valid isStart isEnd owner b' := fun b' hb' =>
      hvalid b' (List.mem_append_right _ hb')
    rw [List.map_cons, NeverMixes]
    obtain ⟨-, hpair, hcross⟩ := List.pairwise_append.mp howner
    split_ifs with hfits htwo
    · -- The bracket fits and leaves a slot.
      have happ : done ++ b :: bs = done ++ [b] ++ bs := by simp
      have hwhole : whole (done ++ [b]) = whole done ++ b.entries := by simp [whole]
      have hlen : (whole (done ++ [b])).length + (room - (b.samples.length + 2)) = cap := by
        rw [hwhole, List.length_append, Bracket.length_entries]
        omega
      rw [List.flatMap_cons, run_append, run_acts_of_fits (by omega), Option.bind_some, ← hwhole]
      exact ih (happ ▸ hvalid) (happ ▸ howner) hlen (by omega)
    · -- Two slots are left, and everything before them is closed.
      subst htwo
      rw [(AtEnd.self hroom).closed_iff b bs (opened_whole hdone 0) (unmixed_whole hdone) hbs]
      simp
    · by_cases hone : room = 1
      · subst hone
        refine iff_of_false (one_left_false hdone hbs (fun b' hb' d hd => ?_) hroom hcap)
          fun h => h.1 rfl
        exact hcross d hd b' hb'
      · rw [long_iff hdone hbs (List.pairwise_cons.mp hpair).1 hroom (by omega) (by omega)]
        simp [hone]

end Criterion

end Scan

end UbenchAgent.Brackets
