import SqlBuilder.Json.Basic

/-!
# JSON documents as bind values

A `Document` is a value without its accidents of writing: at every depth the keys of an object are
distinct and in the order of their code points.  `Document.of` brings any value into that form; of
several members with one key the last counts.
-/

namespace SqlBuilder

namespace Json

mutual

/-- Whether, at every depth, the keys of each object increase strictly. -/
def IsSorted : Json → Prop
  | .array items => AllSorted items
  | .object members => MembersSorted members
  | _ => True

/-- Whether each of some items is sorted. -/
def AllSorted : List Json → Prop
  | [] => True
  | j :: rest => IsSorted j ∧ AllSorted rest

/-- Whether each of some members is sorted and has a key less than those that follow. -/
def MembersSorted : List (String × Json) → Prop
  | [] => True
  | (k, j) :: rest => (∀ m ∈ rest, k < m.1) ∧ IsSorted j ∧ MembersSorted rest

end

/-- Puts a member into its place among sorted ones, unless its key is there already. -/
def insertMember (k : String) (j : Json) : List (String × Json) → List (String × Json)
  | [] => [(k, j)]
  | (k', j') :: rest =>
    if k = k' then (k', j') :: rest
    else if k < k' then (k, j) :: (k', j') :: rest
    else (k', j') :: insertMember k j rest

mutual

/-- The value with sorted keys at every depth; of several members with one key the last stays. -/
def sort : Json → Json
  | .array items => .array (sortItems items)
  | .object members => .object (sortMembers members)
  | j => j

/-- Sorts each of some items, which stay in their order. -/
def sortItems : List Json → List Json
  | [] => []
  | j :: rest => sort j :: sortItems rest

/-- Sorts each of some members and puts it into its place among those that follow. -/
def sortMembers : List (String × Json) → List (String × Json)
  | [] => []
  | (k, j) :: rest => insertMember k (sort j) (sortMembers rest)

end

theorem lt_of_ne_of_not_lt {k k' : String} (hne : k ≠ k') (h : ¬k < k') : k' < k :=
  Decidable.byContradiction fun h' =>
    hne (String.le_antisymm (String.not_lt.1 h') (String.not_lt.1 h))

theorem key_of_mem_insertMember {k : String} {j : Json} {m : String × Json} :
    ∀ {ms : List (String × Json)}, m ∈ insertMember k j ms → m.1 = k ∨ m ∈ ms
  | [], h => by simp only [insertMember, List.mem_singleton] at h; exact .inl (by rw [h])
  | (k', j') :: rest, h => by
    unfold insertMember at h
    split at h
    · exact .inr h
    split at h
    · rcases List.mem_cons.1 h with h | h
      · exact .inl (by rw [h])
      · exact .inr h
    · rcases List.mem_cons.1 h with h | h
      · exact .inr (h ▸ List.mem_cons_self)
      · exact (key_of_mem_insertMember h).imp_right (List.mem_cons_of_mem _)

theorem membersSorted_insertMember {k : String} {j : Json} (hj : j.IsSorted) :
    ∀ {ms : List (String × Json)}, MembersSorted ms → MembersSorted (insertMember k j ms)
  | [], _ => by simp [insertMember, MembersSorted, hj]
  | (k', j') :: rest, h => by
    obtain ⟨hlt, hj', hrest⟩ := h
    unfold insertMember
    split
    · exact ⟨hlt, hj', hrest⟩
    · next hne =>
      split
      · next hk =>
        refine ⟨fun m hm => ?_, hj, hlt, hj', hrest⟩
        rcases List.mem_cons.1 hm with rfl | hm
        · exact hk
        · exact String.lt_trans hk (hlt m hm)
      · next hk =>
        refine ⟨fun m hm => ?_, hj', membersSorted_insertMember hj hrest⟩
        rcases key_of_mem_insertMember hm with h | h
        · exact h ▸ lt_of_ne_of_not_lt hne hk
        · exact hlt m h

mutual

theorem isSorted_sort : ∀ j : Json, j.sort.IsSorted
  | .null | .bool _ | .number _ | .string _ => by simp [sort, IsSorted]
  | .array items => by
    simp only [sort, IsSorted]
    exact allSorted_sortItems items
  | .object members => by
    simp only [sort, IsSorted]
    exact membersSorted_sortMembers members

theorem allSorted_sortItems : ∀ items : List Json, AllSorted (sortItems items)
  | [] => by simp [sortItems, AllSorted]
  | j :: rest => ⟨isSorted_sort j, allSorted_sortItems rest⟩

theorem membersSorted_sortMembers :
    ∀ members : List (String × Json), MembersSorted (sortMembers members)
  | [] => by simp [sortMembers, MembersSorted]
  | (_, j) :: rest =>
    membersSorted_insertMember (isSorted_sort j) (membersSorted_sortMembers rest)

end

end Json

/-- A value whose objects have distinct keys in increasing order, at every depth. -/
structure Document where
  json : Json
  isSorted : json.IsSorted

namespace Document

/-- The document that a value stands for. -/
def of (j : Json) : Document :=
  ⟨j.sort, j.isSorted_sort⟩

/-- Equality of documents. -/
def same (a b : Document) : Bool :=
  a.json.same b.json

end Document

end SqlBuilder
