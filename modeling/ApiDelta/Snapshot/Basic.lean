import ApiDelta.Item.Basic

/-!
Snapshots: the public items of a crate, each under an identity of its own. A snapshot is a finite map;
the order of its entries is the order in which they were found and carries no meaning, so two
snapshots are the same when every identity leads to the same item in both.
-/
namespace ApiDelta

abbrev SnapshotEntry := Identity × Item

/-- A finite map from identities to items, as entries with different identities. -/
structure Snapshot where
  entries : List SnapshotEntry
  nodup : (entries.map Prod.fst).Nodup

namespace Snapshot

def empty : Snapshot :=
  ⟨[], List.nodup_nil⟩

def ids (s : Snapshot) : List Identity :=
  s.entries.map Prod.fst

def get? (s : Snapshot) (id : Identity) : Option Item :=
  s.entries.lookup id

/-- An item is found under an identity exactly if the two make up an entry. -/
theorem get?_eq_some_iff {s : Snapshot} {id : Identity} {item : Item} :
    s.get? id = some item ↔ (id, item) ∈ s.entries := by
  obtain ⟨entries, distinct⟩ := s
  show entries.lookup id = some item ↔ (id, item) ∈ entries
  induction entries with
  | nil => simp
  | cons entry rest ih =>
    obtain ⟨key, value⟩ := entry
    rw [List.map_cons, List.nodup_cons] at distinct
    by_cases same : id = key
    · subst same
      have absent : (id, item) ∉ rest := fun member =>
        distinct.1 (List.mem_map.mpr ⟨(id, item), member, rfl⟩)
      simp [absent, eq_comm]
    · have other : (id == key) = false := beq_false_of_ne same
      rw [List.lookup_cons, other, ih distinct.2]
      simp [same]

def contains (s : Snapshot) (id : Identity) : Bool :=
  (s.get? id).isSome

def size (s : Snapshot) : Nat :=
  s.entries.length

/-- Replaces the item of an identity that has one, and adds an entry otherwise. -/
def setEntry (entries : List SnapshotEntry) (id : Identity) (item : Item) : List SnapshotEntry :=
  if id ∈ entries.map Prod.fst then
    entries.map fun entry => if entry.1 = id then (id, item) else entry
  else entries ++ [(id, item)]

theorem ids_setEntry (entries : List SnapshotEntry) (id : Identity) (item : Item) :
    (setEntry entries id item).map Prod.fst =
      if id ∈ entries.map Prod.fst then entries.map Prod.fst else entries.map Prod.fst ++ [id] := by
  unfold setEntry
  split
  · simp only [List.map_map]
    refine List.map_congr_left fun entry _ => ?_
    by_cases same : entry.1 = id <;> simp [same]
  · simp

theorem nodup_setEntry {entries : List SnapshotEntry} (distinct : (entries.map Prod.fst).Nodup)
    (id : Identity) (item : Item) : ((setEntry entries id item).map Prod.fst).Nodup := by
  rw [ids_setEntry]
  split
  · exact distinct
  · rename_i absent
    rw [List.nodup_append]
    refine ⟨distinct, by simp, ?_⟩
    intro a member b single
    rw [List.mem_singleton.mp single]
    exact fun same => absent (same ▸ member)

def set (s : Snapshot) (id : Identity) (item : Item) : Snapshot :=
  ⟨setEntry s.entries id item, nodup_setEntry s.nodup id item⟩

/-- Setting an identity changes what is found under it and nothing else. -/
theorem get?_set (s : Snapshot) (id other : Identity) (item : Item) :
    (s.set id item).get? other = if other = id then some item else s.get? other := by
  refine Option.ext fun found => ?_
  rw [get?_eq_some_iff]
  by_cases same : other = id
  · subst same
    show (other, found) ∈ setEntry s.entries other item ↔ _
    unfold setEntry
    split
    · rename_i known
      obtain ⟨entry, member, named⟩ := List.mem_map.mp known
      simp only [List.mem_map, ↓reduceIte, Option.some.injEq]
      constructor
      · rintro ⟨entry, _, made⟩
        split at made
        · exact (Prod.mk.inj made).2
        · rename_i different
          exact absurd (congrArg Prod.fst made) different
      · rintro rfl
        exact ⟨entry, member, by simp [named]⟩
    · rename_i unknown
      have absent : (other, found) ∉ s.entries := fun member =>
        unknown (List.mem_map.mpr ⟨(other, found), member, rfl⟩)
      simp [absent, eq_comm]
  · rw [if_neg same, get?_eq_some_iff]
    show (other, found) ∈ setEntry s.entries id item ↔ _
    unfold setEntry
    split
    · rw [List.mem_map]
      constructor
      · rintro ⟨entry, member, made⟩
        split at made
        · exact absurd (Prod.mk.inj made).1.symm same
        · exact made ▸ member
      · exact fun member => ⟨(other, found), member, by simp [same]⟩
    · simp [same]

/-- The snapshot with the given entries; of entries with one identity the last one counts. -/
def ofList (entries : List SnapshotEntry) : Snapshot :=
  entries.foldl (fun s entry => s.set entry.1 entry.2) empty

/-- The entries in the order of their identities. -/
def sortedEntries (s : Snapshot) : List SnapshotEntry :=
  s.entries.mergeSort fun a b => a.1.le b.1

/-- Whether two snapshots hold the same items under the same identities. -/
def same (a b : Snapshot) : Bool :=
  a.entries.length == b.entries.length &&
    a.entries.all fun entry => b.get? entry.1 == some entry.2

/-- A short account of a snapshot. -/
def summary (s : Snapshot) : String :=
  s!"PublicApi({s.size} items)"

end Snapshot

end ApiDelta
