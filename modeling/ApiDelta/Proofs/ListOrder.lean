import ApiDelta.Proofs.DueTasks

/-!
The order of lists. Fields, variants and members may be listed in any order. So may the items of modules
and the implementations of types, provided that nothing is listed twice and nothing is re-exported; else
the first path that reaches an entry wins, and another order makes another path the first.
-/
namespace ApiDelta.Tree

section Index

variable {free : Bool} {tree other : Tree}

/-- It is enough to compare the entries one by one. -/
theorem reordered_of_index
    (entries : List.Forall₂ (fun pair pair' => pair.1 = pair'.1 ∧ pair.2.Reordered free pair'.2)
      tree.index other.index) : tree.Reordered free other := by
  intro id
  unfold entry?
  generalize tree.index = index, other.index = index' at entries
  induction entries with
  | nil => exact .none
  | @cons pair pair' rest rest' first _ ih =>
    obtain ⟨key, entry⟩ := pair
    obtain ⟨key', entry'⟩ := pair'
    obtain ⟨keys, same⟩ := first
    obtain rfl : key = key' := keys
    rw [List.lookup_cons, List.lookup_cons]
    cases id == key with
    | true => exact .some same
    | false => exact ih

/-- A number in the list of an entry stands in a list of the index. -/
theorem exists_index_of_listed {id child : Int} (member : child ∈ tree.listed id) :
    ∃ entry, (id, entry) ∈ tree.index ∧ child ∈ entry.declaration.listed ∧
      tree.listed id = entry.declaration.listed := by
  unfold listed declaration? at member ⊢
  cases found : tree.entry? id with
  | none =>
    rw [found] at member
    cases member
  | some entry =>
    rw [found] at member
    exact ⟨entry, mem_index_of_entry? found, member, rfl⟩

/-- It is enough to look at the lists of the index, one after the other. -/
theorem unshared_of_index (once : (tree.index.flatMap (·.2.declaration.listed)).Nodup)
    (rootless : rootId ∉ tree.index.flatMap (·.2.declaration.listed))
    (closed : ∀ pair ∈ tree.index, ∀ decl, pair.2.declaration ≠ .reexport decl) : tree.Unshared := by
  constructor
  case once =>
    intro id
    cases empty : tree.listed id with
    | nil => exact List.nodup_nil
    | cons child rest =>
      obtain ⟨entry, held, _, same⟩ := exists_index_of_listed (empty ▸ List.mem_cons_self)
      rw [← empty, same]
      exact (List.nodup_flatMap.mp once).1 _ held
  case apart =>
    intro id id' child member member'
    obtain ⟨entry, held, inside, _⟩ := exists_index_of_listed member
    obtain ⟨entry', held', inside', _⟩ := exists_index_of_listed member'
    exact congrArg Prod.fst (eq_of_nodup_flatMap once held held' inside inside')
  case rootless =>
    intro id member
    obtain ⟨entry, held, inside, _⟩ := exists_index_of_listed member
    exact rootless (List.mem_flatMap.mpr ⟨_, held, inside⟩)
  case closed =>
    intro id decl declared
    obtain ⟨entry, found, same⟩ := Option.map_eq_some_iff.mp declared
    have held := mem_index_of_entry? found
    exact closed _ held decl same

end Index

/-- **The order of lists makes no difference.** If two trees differ only in the order in which structures,
unions, enumerations, variants, traits and implementations list their parts, then both can be flattened or
neither, and the snapshots are equal. If nothing stands in two lists or twice in one, the root in none,
and nothing is re-exported, then modules may list their items and types their implementations in another
order, too. -/
theorem list_order_is_irrelevant (tree other : Tree) :
    (tree.Reordered false other → tree.SameOutcome other) ∧
      (tree.Unshared → tree.Reordered true other → tree.SameOutcome other) :=
  ⟨sameOutcome_of_reordered, sameOutcome_of_unshared⟩

/-- A library with a structure of two fields and a constant, listed in the given orders. -/
def planeTree (items fields : List Int) : Tree where
  index := [
    (0, { declaration := .module { name := "plane", items := items } }),
    (1, { declaration := .struct { name := "Point", fields := fields } }),
    (2, { declaration := .structField { name := "x", type := "i32" } }),
    (3, { declaration := .structField { name := "y", type := "i32" } }),
    (4, { declaration := .constant { name := "UNIT", type := "i32" } })]
  root := { name := "plane", items := items }
  rooted := rfl

theorem planeTree_reordered {free : Bool} {items items' fields fields' : List Int}
    (listed : Rearranged free items items') (held : fields.Perm fields') :
    (planeTree items fields).Reordered free (planeTree items' fields') := by
  refine reordered_of_index (.cons ⟨rfl, rfl, ?_⟩ (.cons ⟨rfl, rfl, ?_⟩ ?_))
  · exact @Declaration.Reordered.module free { name := "plane", items := items } items' listed
  · exact @Declaration.Reordered.struct free { name := "Point", fields := fields } fields' [] held
      (.refl _)
  · exact List.forall₂_same.mpr fun _ _ => ⟨rfl, rfl, .same _⟩

/-- The fields may change places, and so may the structure and the constant. -/
theorem list_order_is_irrelevant_plane :
    (planeTree [1, 4] [2, 3]).SameOutcome (planeTree [1, 4] [3, 2]) ∧
      (planeTree [1, 4] [2, 3]).SameOutcome (planeTree [4, 1] [3, 2]) := by
  have fields : [(2 : Int), 3].Perm [3, 2] := .swap 3 2 []
  have items : [(1 : Int), 4].Perm [4, 1] := .swap 4 1 []
  have unshared : (planeTree [1, 4] [2, 3]).Unshared :=
    unshared_of_index (by decide) (by decide) (by simp [planeTree])
  exact ⟨(list_order_is_irrelevant _ _).1 (planeTree_reordered (.refl _) fields),
    (list_order_is_irrelevant _ _).2 unshared (planeTree_reordered items fields)⟩

end ApiDelta.Tree
