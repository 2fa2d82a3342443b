import Mathlib.Data.List.Basic
import ApiDelta.Proofs.WalkRuns

/-!
The parts of a plan: the fields of a type or of a variant, the variants of an enumeration, and the
members of a trait or an implementation. For each list of parts this module says which entries it
visits and what it publishes, without regard to where in the list a part stands, and that the names
which the owner records are the names of what is published.
-/
namespace ApiDelta

/-- The last two segments of a path, as the name of a variant's field. -/
def Identity.qualifiedName (id : Identity) : String :=
  pathText (id.path.drop (id.path.length - 2))

theorem Identity.qualifiedName_append (path : List String) (variant field : String) (kind : IdKind) :
    qualifiedName ⟨path ++ [variant] ++ [field], kind⟩ = variant ++ "::" ++ field := by
  have last : (path ++ [variant] ++ [field]).drop ((path ++ [variant] ++ [field]).length - 2) =
      [variant, field] := by
    simp
  rw [qualifiedName, last]
  rfl

namespace Tree

variable {tree : Tree} {type : Identity} {path : List String} {referrer id : Int} {ids : List Int}

/-! ## Fields -/

/-- The publication of a field. -/
def fieldPublication (type : Identity) (path : List String) (id : Int) (deprecated : Bool)
    (decl : FieldDecl) : Publication where
  source := id
  id := ⟨path ++ [decl.name], .structField⟩
  item := { name := decl.name, deprecated := deprecated, owner := some type, form := .field decl.type }

/-- An accepted number leads to a field, which is visited and published. -/
theorem fieldActions_of_accepted (accepted : Accepted (tree.fieldActions type path referrer id)) :
    ∃ deprecated decl, tree.entry? id = some ⟨deprecated, .structField decl⟩ ∧
      tree.fieldActions type path referrer id =
        [.visit id, .publish (fieldPublication type path id deprecated decl)] := by
  unfold fieldActions at accepted ⊢
  cases led : tree.field? referrer id with
  | error problem => exact absurd (by simp [led]) (accepted problem)
  | ok field =>
    obtain ⟨deprecated, decl⟩ := field
    refine ⟨deprecated, decl, ?_, rfl⟩
    unfold field? at led
    split at led
    · cases led
    · rename_i found
      cases led
      exact found
    · cases led

/-- The recorded names are those of the published fields. -/
theorem names_of_fields :
    (publications (ids.flatMap (tree.fieldActions type path referrer))).map (·.item.name) =
      tree.fieldNames referrer ids := by
  rw [publications_flatMap, List.map_flatMap, fieldNames, List.filterMap_eq_flatMap_toList]
  refine List.flatMap_congr fun id _ => ?_
  unfold fieldActions
  cases tree.field? referrer id <;> rfl

/-! ## Variants -/

/-- An accepted number leads to a variant, which is visited before its fields. -/
theorem variantActions_of_accepted (accepted : Accepted (tree.variantActions type referrer id)) :
    ∃ deprecated decl, tree.entry? id = some ⟨deprecated, .variant decl⟩ ∧
      tree.variantActions type referrer id =
        .visit id :: decl.fields.flatMap (tree.fieldActions type (type.path ++ [decl.name]) id) := by
  unfold variantActions at accepted ⊢
  cases led : tree.variant? referrer id with
  | error problem => exact absurd (by simp [led]) (accepted problem)
  | ok decl =>
    unfold variant? at led
    split at led
    · cases led
    · rename_i deprecated decl found
      cases led
      exact ⟨deprecated, decl, found, rfl⟩
    · cases led

private theorem qualified_names_of_fields {variant : String} :
    (publications (ids.flatMap (tree.fieldActions type (path ++ [variant]) referrer))).map
        (·.id.qualifiedName) =
      (tree.fieldNames referrer ids).map fun name => variant ++ "::" ++ name := by
  rw [publications_flatMap, List.map_flatMap, fieldNames, List.map_filterMap,
    List.filterMap_eq_flatMap_toList]
  refine List.flatMap_congr fun id _ => ?_
  unfold fieldActions
  cases tree.field? referrer id with
  | error problem => rfl
  | ok field =>
    have qualified : Identity.qualifiedName ⟨path ++ [variant] ++ [field.2.name], .structField⟩ =
        variant ++ "::" ++ field.2.name := Identity.qualifiedName_append ..
    exact congrArg (fun name => [name]) qualified

/-- The recorded names of variant fields are those of the published fields, each after its variant. -/
theorem names_of_variant_fields :
    (publications (ids.flatMap (tree.variantActions type referrer))).map (·.id.qualifiedName) =
      tree.variantFieldNames referrer ids := by
  rw [publications_flatMap, List.map_flatMap, variantFieldNames, variants,
    List.filterMap_eq_flatMap_toList, List.flatMap_assoc]
  refine List.flatMap_congr fun id _ => ?_
  unfold variantActions
  cases tree.variant? referrer id with
  | error problem => rfl
  | ok decl =>
    dsimp only
    rw [publications_visit, qualified_names_of_fields]
    exact (List.append_nil _).symm

/-! ## Members -/

/-- The kind and the name under which a declaration can be a member. -/
def Declaration.memberName? : Declaration → Option (IdKind × String)
  | .function decl => some (.method, decl.name)
  | .method decl => some (.method, decl.name)
  | .assocType decl => some (.assocType, decl.name)
  | .assocConst decl => some (.assocConst, decl.name)
  | _ => none

theorem map_memberItem? (entry : Entry) (parent : String) (owner : Option Identity) :
    (memberItem? entry parent owner).map (fun member => (member.1, member.2.name)) =
      entry.declaration.memberName? := by
  unfold memberItem?
  split <;> simp_all [Declaration.memberName?, methodItem]

/-- An accepted number leads to a declaration that can be a member, which is visited and published. -/
theorem memberActions_of_accepted {parent : String} {owner : Option Identity}
    (accepted : Accepted (tree.memberActions path parent owner referrer id)) :
    ∃ entry kind item, tree.entry? id = some entry ∧
      memberItem? entry parent owner = some (kind, item) ∧
      tree.memberActions path parent owner referrer id =
        [.visit id, .publish ⟨id, ⟨path ++ [item.name], kind⟩, item⟩] := by
  unfold memberActions at accepted ⊢
  cases led : tree.member? parent owner referrer id with
  | error problem => exact absurd (by simp [led]) (accepted problem)
  | ok member =>
    obtain ⟨kind, item⟩ := member
    unfold member? at led
    split at led
    · cases led
    · rename_i entry found
      split at led
      · rename_i possible
        cases led
        exact ⟨entry, kind, item, found, possible, rfl⟩
      · cases led

theorem map_member? (parent : String) (owner : Option Identity) :
    (tree.member? parent owner referrer id).toOption.map (fun member => (member.1, member.2.name)) =
      (tree.entry? id).bind fun entry => entry.declaration.memberName? := by
  unfold member?
  cases tree.entry? id with
  | none => rfl
  | some entry =>
    rw [Option.bind_some, ← map_memberItem? entry parent owner]
    dsimp only
    cases memberItem? entry parent owner <;> rfl

/-- The recorded kinds and names are those of the published members. -/
theorem names_of_members {parent : String} {owner : Option Identity} :
    (publications (ids.flatMap (tree.memberActions path parent owner referrer))).map
        (fun publication => (publication.id.kind, publication.item.name)) =
      tree.memberNames referrer ids := by
  rw [publications_flatMap, List.map_flatMap, memberNames, List.filterMap_eq_flatMap_toList]
  refine List.flatMap_congr fun id _ => ?_
  -- the kind and the name of a member do not depend on its parent and its owner
  rw [map_member?, ← map_member? parent owner]
  unfold memberActions
  cases tree.member? parent owner referrer id <;> rfl

/-! ## Blocks of implementations -/

/-- Whether a block of implementations tells of the interface: not if the compiler supplies it, and not
if it covers types at large. -/
def ImplDecl.Counts (decl : ImplDecl) : Prop :=
  ¬(decl.synthetic ∨ decl.blanket)

instance (decl : ImplDecl) : Decidable decl.Counts :=
  inferInstanceAs (Decidable ¬(decl.synthetic ∨ decl.blanket))

variable {decl : ImplDecl} {deprecated : Bool}

theorem implPlan_passed (passed : ¬decl.Counts) :
    tree.implPlan id deprecated type decl =
      { actions := [.visit id, .skip (.impl decl.synthetic id type)] } := by
  rw [implPlan, if_pos (not_not.mp passed)]

theorem implPlan_own (counts : decl.Counts) (own : decl.trait = none) :
    tree.implPlan id deprecated type decl =
      { actions := .visit id :: decl.items.flatMap
          (tree.memberActions (implPath decl type) (Identity.pathText type.path) none id) } := by
  rw [implPlan, if_neg counts]
  simp only [own]

theorem implPlan_trait {trait : String} (counts : decl.Counts) (named : decl.trait = some trait) :
    tree.implPlan id deprecated type decl =
      { actions := .visit id :: decl.items.flatMap
          (tree.memberActions (implIdentity decl type trait).path
            (implIdentity decl type trait).display (some (implIdentity decl type trait)) id) ++
          [.publish ⟨id, implIdentity decl type trait,
            tree.traitImplItem id deprecated decl trait⟩] } := by
  rw [implPlan, if_neg counts]
  simp only [named]

end Tree

end ApiDelta
