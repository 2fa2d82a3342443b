import ApiDelta.Proofs.References

/-!
What a plan reads. A plan reads the entry that its task asks for, and what that entry holds as fields,
variants and members: an item published is made from these and nothing else. So where two trees agree on
the entry, and each search for a part comes to the same in both, the task is planned alike, whatever the
items of a module or the target of a re-export may be elsewhere.
-/
namespace ApiDelta.Tree

/-- A search for a part comes to the same in both trees, be it that it finds a field, a variant or a
member, or why it refuses the number. -/
structure SamePart (tree other : Tree) (id : Int) : Prop where
  field : ∀ referrer, other.field? referrer id = tree.field? referrer id
  variant : ∀ referrer, other.variant? referrer id = tree.variant? referrer id
  member : ∀ parent owner referrer,
    other.member? parent owner referrer id = tree.member? parent owner referrer id

/-- The declarations that list other items, or lead to one, and can be no part themselves. -/
def Declaration.IsWhole : Declaration → Prop
  | .module _ | .reexport _ => True
  | _ => False

/-- Whatever an entry of the first tree holds as its part, a search for it comes to the same in both. -/
def SameParts (tree other : Tree) : Prop :=
  ∀ owner, ∀ reference ∈ tree.held owner, tree.SamePart other reference.id

section Searches

variable {tree other : Tree} {id : Int}

theorem samePart_of_same (same : other.entry? id = tree.entry? id) : tree.SamePart other id where
  field _ := by simp only [field?, same]
  variant _ := by simp only [variant?, same]
  member _ _ _ := by simp only [member?, same]

/-- A module or a re-export is no part, whatever it lists or aims at. -/
theorem samePart_of_whole {entry entry' : Entry} (found : tree.entry? id = some entry)
    (found' : other.entry? id = some entry') (whole : entry.declaration.IsWhole)
    (whole' : entry'.declaration.IsWhole)
    (kind : entry'.declaration.kind = entry.declaration.kind) : tree.SamePart other id := by
  obtain ⟨deprecated, declaration⟩ := entry
  obtain ⟨deprecated', declaration'⟩ := entry'
  cases declaration with
  | module | reexport =>
    cases declaration' with
    | module | reexport =>
      constructor <;> intros <;> simp only [field?, variant?, member?, memberItem?, found, found', kind]
    | _ => exact whole'.elim
  | _ => exact whole.elim

end Searches

/-! ## Parts -/

section Parts

variable {tree other : Tree} {id referrer : Int} {ids : List Int} {type : Identity}
  {path : List String}

theorem fieldActions_eq (same : tree.SamePart other id) :
    other.fieldActions type path referrer id = tree.fieldActions type path referrer id := by
  simp only [fieldActions, same.field]

theorem fieldNames_eq_of_parts (same : ∀ id ∈ ids, tree.SamePart other id) :
    other.fieldNames referrer ids = tree.fieldNames referrer ids :=
  List.filterMap_congr fun id member => by rw [(same id member).field]

theorem variants_eq (same : ∀ id ∈ ids, tree.SamePart other id) :
    other.variants referrer ids = tree.variants referrer ids :=
  List.filterMap_congr fun id member => by rw [(same id member).variant]

theorem memberActions_eq {parent : String} {owner : Option Identity}
    (same : tree.SamePart other id) :
    other.memberActions path parent owner referrer id =
      tree.memberActions path parent owner referrer id := by
  simp only [memberActions, same.member]

theorem memberNames_eq_of_parts (same : ∀ id ∈ ids, tree.SamePart other id) :
    other.memberNames referrer ids = tree.memberNames referrer ids :=
  List.filterMap_congr fun id member => by rw [(same id member).member]

/-- What a number leads to, if it can be a variant. -/
theorem declared_of_variant? {decl : VariantDecl} (found : tree.variant? referrer id = .ok decl) :
    tree.declaration? id = some (.variant decl) := by
  unfold variant? at found
  split at found
  · cases found
  · rename_i entry
    cases found
    exact declared_of_found entry
  · cases found

theorem declared_of_mem_variants {pair : Int × VariantDecl}
    (member : pair ∈ tree.variants referrer ids) :
    tree.declaration? pair.1 = some (.variant pair.2) := by
  obtain ⟨id, _, found⟩ := List.mem_filterMap.mp member
  cases searched : tree.variant? referrer id with
  | error problem =>
    rw [searched] at found
    cases found
  | ok decl =>
    rw [searched] at found
    cases found
    exact declared_of_variant? searched

variable (parts : tree.SameParts other)

include parts

theorem samePart_of_references {role : Role}
    (held : tree.held referrer = role.references referrer ids) :
    ∀ id ∈ ids, tree.SamePart other id := by
  intro id member
  exact parts referrer ⟨referrer, role, id⟩ (held ▸ Role.mem_references.mpr ⟨id, member, rfl⟩)

theorem samePart_of_variant {decl : VariantDecl}
    (declared : tree.declaration? id = some (.variant decl)) :
    ∀ field ∈ decl.fields, tree.SamePart other field :=
  samePart_of_references parts (by rw [held, declared])

theorem variantActions_eq (same : tree.SamePart other id) :
    other.variantActions type referrer id = tree.variantActions type referrer id := by
  simp only [variantActions, same.variant]
  cases found : tree.variant? referrer id with
  | error problem => rfl
  | ok decl =>
    have fields := samePart_of_variant parts (declared_of_variant? found)
    exact congrArg _ (List.flatMap_congr fun field member => fieldActions_eq (fields field member))

theorem variantFieldNames_eq_of_parts (same : ∀ id ∈ ids, tree.SamePart other id) :
    other.variantFieldNames referrer ids = tree.variantFieldNames referrer ids := by
  rw [variantFieldNames, variantFieldNames, variants_eq same]
  refine List.flatMap_congr fun pair member => ?_
  have fields := samePart_of_variant parts (declared_of_mem_variants member)
  exact congrArg _ (fieldNames_eq_of_parts fields)

end Parts

/-! ## Plans -/

section Plans

variable {tree other : Tree} {id : Int} {path : List String}

theorem itemPlan_eq {entry : Entry} {givenName : Option String} (parts : tree.SameParts other)
    (found : tree.entry? id = some entry) :
    other.itemPlan id entry path givenName = tree.itemPlan id entry path givenName := by
  have declared := declared_of_found found
  obtain ⟨deprecated, declaration⟩ := entry
  cases declaration with
  | struct decl | union decl =>
    have fields : ∀ field ∈ decl.fields, tree.SamePart other field :=
      samePart_of_references parts (by rw [held, declared])
    simp only [itemPlan, structPlan, unionPlan, fieldNames_eq_of_parts fields,
      List.flatMap_congr fun field member => fieldActions_eq (fields field member)]
  | enum decl =>
    have variants : ∀ variant ∈ decl.variants, tree.SamePart other variant :=
      samePart_of_references parts (by rw [held, declared])
    simp only [itemPlan, enumPlan, variants_eq variants, variantFieldNames_eq_of_parts parts variants,
      List.flatMap_congr fun variant member => variantActions_eq parts (variants variant member)]
  | trait decl =>
    have members : ∀ member ∈ decl.items, tree.SamePart other member :=
      samePart_of_references parts (by rw [held, declared])
    simp only [itemPlan, traitPlan, memberNames_eq_of_parts members,
      List.flatMap_congr fun item member => memberActions_eq (members item member)]
  | _ => rfl

theorem implPlan_eq {deprecated : Bool} {type : Identity} {decl : ImplDecl}
    (parts : tree.SameParts other) (declared : tree.declaration? id = some (.impl decl)) :
    other.implPlan id deprecated type decl = tree.implPlan id deprecated type decl := by
  by_cases counts : decl.Counts
  · have held : tree.held id = Role.member.references id decl.items := by
      simp only [held, declared, if_pos counts]
    have members : ∀ member ∈ decl.items, tree.SamePart other member :=
      samePart_of_references parts held
    simp only [implPlan, traitImplItem, memberNames_eq_of_parts members,
      List.flatMap_congr fun item member => memberActions_eq (members item member)]
  · rw [implPlan_passed counts, implPlan_passed counts]

/-- Where two trees agree on the entry that a task asks for, and on all parts, they plan it alike. -/
theorem plan_eq {task : Task} (parts : tree.SameParts other)
    (same : other.entry? task.id = tree.entry? task.id) : other.plan task = tree.plan task := by
  obtain ⟨id, path, via⟩ := task
  cases found : tree.entry? id with
  | none => cases via <;> simp only [plan, found, same]
  | some entry =>
    have declared := declared_of_found found
    have items : ∀ path givenName,
        other.itemPlan id entry path givenName = tree.itemPlan id entry path givenName :=
      fun _ _ => itemPlan_eq parts found
    obtain ⟨deprecated, declaration⟩ := entry
    cases via with
    | attached type referrer =>
      cases declaration with
      | impl decl => simp only [plan, found, same, implPlan_eq parts declared]
      | _ => simp only [plan, found, same]
    | listed | named | spliced => simp only [plan, found, same, items]

end Plans

end ApiDelta.Tree
