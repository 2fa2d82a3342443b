import Mathlib.Data.List.Lex
import Mathlib.Data.Prod.Lex
import Mathlib.Data.String.Basic
import ApiDelta.Delta.Diagnosis

/-!
The order of a report. A change is placed by its key: the rank of its kind, then the path of its
identity segment by segment, then the name of the identity's kind. Keys are ordered linearly and tell
changes of one kind and identity apart from all others, so a report has one order.
-/
namespace ApiDelta

namespace IdKind

theorem ofLabel?_label (kind : IdKind) : ofLabel? kind.label = some kind := by
  cases kind <;> rfl

theorem label_injective : Function.Injective label := by
  intro a b same
  have read := congrArg ofLabel? same
  rw [ofLabel?_label, ofLabel?_label] at read
  exact Option.some.inj read

end IdKind

namespace Identity

/-- What identities are ordered by. -/
def key (id : Identity) : List String ×ₗ String :=
  toLex (id.path, id.kind.label)

theorem key_injective : Function.Injective key := by
  intro a b same
  obtain ⟨paths, labels⟩ := Prod.mk.inj (toLex.injective same)
  obtain ⟨path, kind⟩ := a
  obtain ⟨otherPath, otherKind⟩ := b
  rw [Identity.mk.injEq]
  exact ⟨paths, IdKind.label_injective labels⟩

theorem le_iff {a b : Identity} : a.le b = true ↔ a.key ≤ b.key := by
  simp [le, key, Prod.Lex.toLex_le_toLex]

end Identity

namespace ChangeKind

theorem rank_injective : Function.Injective rank := by
  intro a b same
  cases a <;> cases b <;> first | rfl | exact absurd same (by decide)

end ChangeKind

namespace Change

/-- What changes are ordered by. -/
def key (change : Change) : Nat ×ₗ List String ×ₗ String :=
  toLex (change.kind.rank, change.id.key)

theorem key_eq_iff {a b : Change} : a.key = b.key ↔ a.kind = b.kind ∧ a.id = b.id := by
  simp [key, ChangeKind.rank_injective.eq_iff, Identity.key_injective.eq_iff]

theorem le_iff {a b : Change} : a.le b = true ↔ a.key ≤ b.key := by
  simp [le, key, Prod.Lex.toLex_le_toLex, Identity.le_iff]

end Change

namespace Diagnosis

theorem mem_ofChanges {changes : List Change} {change : Change} :
    change ∈ (ofChanges changes).changes ↔ change ∈ changes :=
  List.mem_mergeSort

theorem ofChanges_pairwise_le (changes : List Change) :
    (ofChanges changes).changes.Pairwise fun a b => a.key ≤ b.key := by
  have sorted : (changes.mergeSort Change.le).Pairwise fun a b => a.le b = true := by
    refine List.pairwise_mergeSort (fun a b c first second => ?_) (fun a b => ?_) changes
    · rw [Change.le_iff] at first second ⊢
      exact first.trans second
    · rw [Bool.or_eq_true, Change.le_iff, Change.le_iff]
      exact le_total a.key b.key
  exact sorted.imp Change.le_iff.mp

/-- Changes of different kinds or identities stand in strictly increasing order. -/
theorem ofChanges_pairwise_lt {changes : List Change} (distinct : (changes.map Change.key).Nodup) :
    (ofChanges changes).changes.Pairwise fun a b => a.key < b.key := by
  have keys : ((ofChanges changes).changes.map Change.key).Nodup :=
    (((List.mergeSort_perm changes Change.le).map Change.key).nodup_iff).mpr distinct
  rw [List.Nodup, List.pairwise_map] at keys
  exact ((ofChanges_pairwise_le changes).and keys).imp fun both => lt_of_le_of_ne both.1 both.2

/-- A strictly increasing list of changes is determined by its elements. -/
theorem eq_of_pairwise_lt {a b : List Change} (increasing : a.Pairwise fun x y => x.key < y.key)
    (otherIncreasing : b.Pairwise fun x y => x.key < y.key)
    (same : ∀ change, change ∈ a ↔ change ∈ b) : a = b := by
  have nodup : ∀ changes : List Change, changes.Pairwise (fun x y => x.key < y.key) →
      changes.Nodup :=
    fun changes sorted => sorted.imp fun less equal => less.ne (congrArg Change.key equal)
  have perm : a.Perm b :=
    (List.perm_ext_iff_of_nodup (nodup a increasing) (nodup b otherIncreasing)).mpr same
  exact perm.eq_of_pairwise (fun x y _ _ less greater => absurd (less.trans greater) (lt_irrefl _))
    increasing otherIncreasing

end Diagnosis

end ApiDelta
