import UbenchAgent.Threads
import UbenchAgent.Lib.KeyedArray

/-!
# The thread map as a finite map

In every run of the two operations from the empty map, the valid entries have distinct
Java identifiers and lie inside the allocated block.  So the map is a finite map from Java
to native identifiers, and the operations insert into it and remove from it.
-/

namespace UbenchAgent

open KeyedArray

def ThreadMap.valid (map : ThreadMap) : List ThreadMapEntry := map.entries.take map.length

/-- The native identifier of a Java thread, if it is known. -/
def ThreadMap.lookup (map : ThreadMap) (javaThreadId : Int64) : Option Int64 :=
  (find ThreadMapEntry.javaId map.valid javaThreadId).map (·.nativeId)

structure ThreadMap.Inv (map : ThreadMap) : Prop where
  block : map.entries.length = map.capacity
  length_le : map.length ≤ map.capacity
  nodup : (map.valid.map (·.javaId)).Nodup

/-- An operation on the map; an insertion comes with what `realloc` gives. -/
inductive ThreadMapOp
  | put (javaThreadId nativeThreadId : Int64) (realloc : Option ThreadMapEntry)
  | remove (nativeThreadId : Int64)
  deriving DecidableEq, Repr

def ThreadMap.step (map : ThreadMap) : ThreadMapOp → ThreadMap
  | .put j n realloc => (threadMapPutJavaThread map j n realloc).2
  | .remove n => (threadMapRemoveNativeThread map n).2

section Lookup

variable {map : ThreadMap}

theorem ThreadMap.Inv.length_valid (h : map.Inv) : map.valid.length = map.length := by
  rw [valid, List.length_take, h.block]
  exact min_eq_left h.length_le

theorem indexOfJavaThread_eq_some {j : Int64} {i : ℕ}
    (h : threadMapIndexOfJavaThread map j = some i) :
    ∃ entry, map.valid[i]? = some entry ∧ find ThreadMapEntry.javaId map.valid j = some entry := by
  have hlt := (List.findIdx?_eq_some_iff_getElem.mp h).1
  have hfind : find ThreadMapEntry.javaId map.valid j = map.valid[i]? := by
    rw [find, List.find?_eq_bind_findIdx?_getElem?]
    change (threadMapIndexOfJavaThread map j).bind _ = _
    rw [h]
    rfl
  exact ⟨_, List.getElem?_eq_getElem hlt, hfind.trans (List.getElem?_eq_getElem hlt)⟩

theorem indexOfJavaThread_eq_none {j : Int64} (h : threadMapIndexOfJavaThread map j = none) :
    j ∉ map.valid.map (·.javaId) := by
  have hall := List.findIdx?_eq_none_iff.mp h
  rw [List.mem_map]
  rintro ⟨entry, hmem, rfl⟩
  simpa using hall entry hmem

theorem getNativeId_eq_lookup (map : ThreadMap) (j : Int64) :
    ubenchThreadsGetNativeId map j = (map.lookup j).getD ubenchThreadIdInvalid := by
  unfold ubenchThreadsGetNativeId ThreadMap.lookup
  cases h : threadMapIndexOfJavaThread map j with
  | none => rw [find_eq_none.mpr (indexOfJavaThread_eq_none h)]; rfl
  | some i =>
    obtain ⟨entry, hget, hfind⟩ := indexOfJavaThread_eq_some h
    have hlt : i < map.length := by
      have := (List.getElem?_eq_some_iff.mp hget).1
      rw [ThreadMap.valid, List.length_take] at this
      omega
    rw [ThreadMap.valid, List.getElem?_take_of_lt hlt] at hget
    rw [hfind, Option.map_some, Option.getD_some]
    dsimp only
    rw [List.getD_eq_getElem?_getD, hget]
    rfl

end Lookup

section Put

variable {map : ThreadMap} {j n : Int64} {realloc : Option ThreadMapEntry}

theorem ensureCapacity_spec (h : map.Inv) (required : ℕ) (realloc : Option ThreadMapEntry) :
    (threadMapEnsureCapacity map required realloc = (false, map) ∧ realloc = none) ∨
      ∃ map', threadMapEnsureCapacity map required realloc = (true, map') ∧
        map'.length = map.length ∧ map'.entries.take map.length = map.valid ∧
        map'.entries.length = map'.capacity ∧ required ≤ map'.capacity := by
  unfold threadMapEnsureCapacity
  split_ifs with hlt
  · cases realloc with
    | none => exact .inl ⟨rfl, rfl⟩
    | some fresh =>
      have hlen := h.length_le
      refine .inr ⟨_, rfl, rfl, ?_, ?_, le_rfl⟩
      · dsimp only
        rw [List.take_append_of_le_length (by rw [h.block]; exact hlen)]
        rfl
      · dsimp only
        rw [List.length_append, List.length_replicate, h.block]
        omega
  · exact .inr ⟨map, rfl, rfl, rfl, h.block, Nat.le_of_not_lt hlt⟩

variable (j n realloc) in
/-- What an insertion does: the Java thread is there already, or there is no memory, or the
new entry follows the others. -/
theorem putJavaThread_cases (h : map.Inv) :
    (j ∈ map.valid.map (·.javaId) ∧ threadMapPutJavaThread map j n realloc = (.eexist, map)) ∨
      (j ∉ map.valid.map (·.javaId) ∧ realloc = none ∧
        threadMapPutJavaThread map j n realloc = (.enomem, map)) ∨
      (j ∉ map.valid.map (·.javaId) ∧ ∃ map', threadMapPutJavaThread map j n realloc = (.ok, map') ∧
        map'.valid = map.valid ++ [⟨n, j⟩] ∧ map'.entries.length = map'.capacity ∧
        map'.length ≤ map'.capacity) := by
  unfold threadMapPutJavaThread
  cases hindex : threadMapIndexOfJavaThread map j with
  | some i =>
    obtain ⟨entry, -, hfind⟩ := indexOfJavaThread_eq_some hindex
    obtain ⟨hmem, rfl⟩ := mem_of_find hfind
    exact .inl ⟨List.mem_map_of_mem hmem, rfl⟩
  | none =>
    have hnew := indexOfJavaThread_eq_none hindex
    rcases ensureCapacity_spec h (map.length + 1) realloc with
      ⟨hensure, hnone⟩ | ⟨map', hensure, hlength, htake, hblock, hcap⟩
    · exact .inr (.inl ⟨hnew, hnone, by rw [hensure]⟩)
    · refine .inr (.inr ⟨hnew, _, by rw [hensure], ?_, ?_, ?_⟩)
      · have hlt : map.length < map'.entries.length := by omega
        rw [ThreadMap.valid]
        dsimp only
        rw [hlength, List.take_succ_eq_append_getElem (by rw [List.length_set]; exact hlt),
          List.getElem_set_self, List.take_set_of_le le_rfl, htake]
      · rw [List.length_set]
        exact hblock
      · dsimp only
        omega

theorem ThreadMap.Inv.put (h : map.Inv) : (threadMapPutJavaThread map j n realloc).2.Inv := by
  rcases putJavaThread_cases j n realloc h with
    ⟨-, hput⟩ | ⟨-, -, hput⟩ | ⟨hnew, map', hput, hvalid, hblock, hle⟩
  · rw [hput]
    exact h
  · rw [hput]
    exact h
  · rw [hput]
    refine ⟨hblock, hle, ?_⟩
    rw [hvalid, List.map_append, List.map_singleton, List.nodup_append_comm, List.singleton_append,
      List.nodup_cons]
    exact ⟨hnew, h.nodup⟩

structure PutsInto (map : ThreadMap) (j n : Int64) (realloc : Option ThreadMapEntry)
    (code : ThreadMapResult) (map' : ThreadMap) : Prop where
  codes : code = .ok ∨ code = .eexist ∨ code = .enomem
  eexist_iff : code = .eexist ↔ ∃ entry ∈ map.valid, entry.javaId = j
  memory : code = .enomem → realloc = none
  unchanged : code ≠ .ok → map' = map
  inserted : code = .ok → map'.lookup j = some n
  others : ∀ k, k ≠ j → map'.lookup k = map.lookup k

theorem ThreadMap.Inv.putsInto (h : map.Inv) :
    PutsInto map j n realloc (threadMapPutJavaThread map j n realloc).1
      (threadMapPutJavaThread map j n realloc).2 := by
  have hmem : j ∈ map.valid.map (·.javaId) ↔ ∃ entry ∈ map.valid, entry.javaId = j :=
    List.mem_map
  rcases putJavaThread_cases j n realloc h with
    ⟨hold, hput⟩ | ⟨hnew, hnone, hput⟩ | ⟨hnew, map', hput, hvalid, -, -⟩
  · rw [hput]
    exact ⟨.inr (.inl rfl), iff_of_true rfl (hmem.mp hold), nofun, fun _ => rfl, nofun,
      fun _ _ => rfl⟩
  · rw [hput]
    exact ⟨.inr (.inr rfl), iff_of_false nofun (mt hmem.mpr hnew), fun _ => hnone, fun _ => rfl,
      nofun, fun _ _ => rfl⟩
  · rw [hput]
    have hfind : ∀ k, find ThreadMapEntry.javaId map'.valid k =
        if k = j then some ⟨n, j⟩ else find ThreadMapEntry.javaId map.valid k := by
      intro k
      rw [hvalid]
      exact find_concat (e := (⟨n, j⟩ : ThreadMapEntry)) hnew k
    refine ⟨.inl rfl, iff_of_false nofun (mt hmem.mpr hnew), nofun, fun hne => absurd rfl hne,
      fun _ => ?_, fun k hk => ?_⟩
    · rw [lookup, hfind, if_pos rfl]
      rfl
    · rw [lookup, hfind, if_neg hk]
      rfl

end Put

section Remove

variable {map : ThreadMap} {n : Int64}

/-- What a removal does: no entry has the native identifier, or the last entry takes the
place of the first that has it. -/
theorem removeNativeThread_cases (h : map.Inv) :
    ((∀ entry ∈ map.valid, entry.nativeId ≠ n) ∧
        threadMapRemoveNativeThread map n = (.enoent, map)) ∨
      ∃ (i : ℕ) (hi : i < map.valid.length) (map' : ThreadMap), map.valid[i].nativeId = n ∧
        threadMapRemoveNativeThread map n = (.ok, map') ∧ map'.valid = swapRemove map.valid i ∧
        map'.entries.length = map'.capacity ∧ map'.length ≤ map'.capacity := by
  unfold threadMapRemoveNativeThread
  cases hindex : threadMapIndexOfNativeThread map n with
  | none =>
    refine .inl ⟨fun entry hmem => ?_, rfl⟩
    simpa using List.findIdx?_eq_none_iff.mp hindex entry hmem
  | some i =>
    obtain ⟨hi, hn, -⟩ := List.findIdx?_eq_some_iff_getElem.mp hindex
    have hlength : map.valid.length = map.length := h.length_valid
    have hle := h.length_le
    have hblock := h.block
    have hi' : i < map.length := hlength ▸ hi
    refine .inr ⟨i, hi, _, beq_iff_eq.mp hn, rfl, ?_, ?_, ?_⟩
    · -- The last valid entry is the one below the old length.
      have hlast : map.valid.getLast? =
          some (map.entries.getD (map.length - 1) ⟨0, 0⟩) := by
        rw [List.getLast?_eq_getElem?, hlength, ThreadMap.valid,
          List.getElem?_take_of_lt (by omega), List.getD_eq_getElem?_getD,
          List.getElem?_eq_getElem (by omega)]
        rfl
      rw [swapRemove, hlast, ThreadMap.valid]
      dsimp only
      rw [List.dropLast_eq_take, List.length_set, hlength, ThreadMap.valid, ← List.take_set,
        List.take_take, min_eq_left (by omega)]
    · rw [List.length_set]
      exact hblock
    · dsimp only
      omega

theorem ThreadMap.Inv.remove (h : map.Inv) : (threadMapRemoveNativeThread map n).2.Inv := by
  rcases removeNativeThread_cases (n := n) h with
    ⟨-, hremove⟩ | ⟨i, hi, map', -, hremove, hvalid, hblock, hle⟩
  · rw [hremove]
    exact h
  · rw [hremove]
    refine ⟨hblock, hle, ?_⟩
    rw [hvalid]
    exact nodup_swapRemove h.nodup hi

structure RemovesFrom (map : ThreadMap) (n : Int64) (code : ThreadMapResult)
    (map' : ThreadMap) : Prop where
  codes : code = .ok ∨ code = .enoent
  enoent_iff : code = .enoent ↔ ∀ entry ∈ map.valid, entry.nativeId ≠ n
  unchanged : code = .enoent → map' = map
  removed : code = .ok → ∃ j, map.lookup j = some n ∧ map'.lookup j = none ∧
    ∀ k, k ≠ j → map'.lookup k = map.lookup k

theorem ThreadMap.Inv.removesFrom (h : map.Inv) :
    RemovesFrom map n (threadMapRemoveNativeThread map n).1
      (threadMapRemoveNativeThread map n).2 := by
  rcases removeNativeThread_cases (n := n) h with
    ⟨hnone, hremove⟩ | ⟨i, hi, map', hn, hremove, hvalid, -, -⟩
  · rw [hremove]
    exact ⟨.inr rfl, iff_of_true rfl hnone, fun _ => rfl, nofun⟩
  · rw [hremove]
    have hfind := fun k => find_swapRemove h.nodup hi k
    rw [← hvalid] at hfind
    refine ⟨.inl rfl, iff_of_false nofun fun hall => hall _ (List.getElem_mem hi) hn, nofun,
      fun _ => ⟨map.valid[i].javaId, ?_, ?_, fun k hk => ?_⟩⟩
    · rw [lookup, (find_eq_some h.nodup).mpr ⟨List.getElem_mem hi, rfl⟩, Option.map_some, hn]
    · rw [lookup, hfind, if_pos rfl]
      rfl
    · rw [lookup, hfind, if_neg hk]
      rfl

end Remove

theorem ThreadMap.Inv.empty : ThreadMap.empty.Inv := ⟨rfl, le_rfl, List.nodup_nil⟩

theorem ThreadMap.Inv.step {map : ThreadMap} (h : map.Inv) (op : ThreadMapOp) :
    (map.step op).Inv := by
  cases op with
  | put j n realloc => exact h.put
  | remove n => exact h.remove

theorem ThreadMap.Inv.run {map : ThreadMap} (h : map.Inv) (ops : List ThreadMapOp) :
    (ops.foldl ThreadMap.step map).Inv := by
  induction ops generalizing map with
  | nil => exact h
  | cons op ops ih => exact ih (h.step op)

/-- The map is a finite map, and the operations on it are those of finite maps. -/
structure ThreadMap.IsFiniteMap (map : ThreadMap) : Prop where
  nodup : (map.valid.map (·.javaId)).Nodup
  length_le : map.length ≤ map.capacity
  block : map.entries.length = map.capacity
  getNativeId : ∀ j, ubenchThreadsGetNativeId map j = (map.lookup j).getD ubenchThreadIdInvalid
  known_iff : ∀ j, (map.lookup j).isSome = true ↔ ∃ entry ∈ map.valid, entry.javaId = j
  put : ∀ j n realloc, PutsInto map j n realloc (threadMapPutJavaThread map j n realloc).1
    (threadMapPutJavaThread map j n realloc).2
  remove : ∀ n, RemovesFrom map n (threadMapRemoveNativeThread map n).1
    (threadMapRemoveNativeThread map n).2

/-- After any operations on the empty map it is a finite map. -/
theorem threadMap_isFiniteMap (ops : List ThreadMapOp) :
    (ops.foldl ThreadMap.step .empty).IsFiniteMap := by
  have hinv : (ops.foldl ThreadMap.step .empty).Inv := ThreadMap.Inv.empty.run ops
  refine ⟨hinv.nodup, hinv.length_le, hinv.block, getNativeId_eq_lookup _, fun j => ?_,
    fun _ _ _ => hinv.putsInto, fun _ => hinv.removesFrom⟩
  rw [ThreadMap.lookup, Option.isSome_map, ← Option.ne_none_iff_isSome, Ne, find_eq_none, not_not,
    List.mem_map]

end UbenchAgent
