import ApiDelta.Proofs.JsonTokens
import ApiDelta.Proofs.KeyOrder

/-!
Reading a canonical text. The text of a value tells by its first character what is to be read, and the
characters after it, a comma or a bracket, belong to no value; so a value is read back from the front of
any text that begins with its own. An object is read with its keys in the order of the text, which is
that of `arranged`.
-/
namespace ApiDelta.Json

/-- The characters of the canonical text. -/
def canonicalChars (value : Json) : List Char :=
  spelled (canonicalCodes value)

theorem canonicalChars_text (text : String) : canonicalChars (.text text) =
    '"' :: (spelled ((Text.codePoints text).flatMap escapeCode) ++ ['"']) := by
  rw [canonicalChars, canonicalCodes, stringCodes, spelled_append, spelled_append, spelled_wordCodes]
  rfl

/-- The characters of values with commas between them. -/
def itemChars (items : List Json) : List Char :=
  spelled (commaSeparated (items.map canonicalCodes))

/-- The characters of fields with commas between them. -/
def fieldChars (fields : List (String × Json)) : List Char :=
  spelled (commaSeparated (fields.map fieldText))

theorem canonicalChars_array (items : List Json) :
    canonicalChars (.array items) = '[' :: (itemChars items ++ [']']) := by
  rw [canonicalChars, canonicalCodes_array, spelled_append, spelled_append, spelled_wordCodes,
    spelled_wordCodes]
  rfl

theorem canonicalChars_object (fields : List (String × Json)) :
    canonicalChars (.object fields) = '{' :: (fieldChars (byKey fields) ++ ['}']) := by
  rw [canonicalChars, canonicalCodes_object, spelled_append, spelled_append, spelled_wordCodes,
    spelled_wordCodes]
  rfl

theorem spelled_fieldText (key : String) (value : Json) : spelled (fieldText (key, value)) =
    '"' :: (spelled ((Text.codePoints key).flatMap escapeCode) ++
      '"' :: ':' :: canonicalChars value) := by
  rw [fieldText, spelled_append, spelled_append, spelled_wordCodes]
  show canonicalChars (.text key) ++ [':'] ++ canonicalChars value = _
  rw [canonicalChars_text]
  simp

theorem length_canonicalChars_lt (field : String × Json) :
    (canonicalChars field.2).length < (spelled (fieldText field)).length := by
  rw [spelled_fieldText field.1 field.2, List.length_cons, List.length_append, List.length_cons,
    List.length_cons]
  omega

theorem spelled_commaSeparated_singleton (part : List Nat) :
    spelled (commaSeparated [part]) = spelled part :=
  congrArg spelled List.intercalate_singleton

theorem spelled_commaSeparated_cons_cons (part next : List Nat) (parts : List (List Nat)) :
    spelled (commaSeparated (part :: next :: parts)) =
      spelled part ++ ',' :: spelled (commaSeparated (next :: parts)) := by
  rw [commaSeparated, List.intercalate_cons_cons, spelled_append, spelled_append, spelled_wordCodes,
    List.append_assoc]
  rfl

theorem itemChars_singleton (item : Json) : itemChars [item] = canonicalChars item :=
  spelled_commaSeparated_singleton _

theorem itemChars_cons_cons (item next : Json) (items : List Json) :
    itemChars (item :: next :: items) = canonicalChars item ++ ',' :: itemChars (next :: items) :=
  spelled_commaSeparated_cons_cons ..

theorem fieldChars_singleton (field : String × Json) :
    fieldChars [field] = spelled (fieldText field) :=
  spelled_commaSeparated_singleton _

theorem fieldChars_cons_cons (field next : String × Json) (fields : List (String × Json)) :
    fieldChars (field :: next :: fields) =
      spelled (fieldText field) ++ ',' :: fieldChars (next :: fields) :=
  spelled_commaSeparated_cons_cons ..

/-! ## First characters -/

/-- A first character: no white space, no bracket that would end an empty array, no mark. -/
def Opens (c : Char) : Prop :=
  c ∉ [' ', '\t', '\n', '\r', ']', '\uFEFF']

instance (c : Char) : Decidable (Opens c) :=
  inferInstanceAs (Decidable (c ∉ _))

theorem opens_of_isAsciiDigit {c : Char} (digit : Text.isAsciiDigit c) : Opens c := by
  intro member
  simp only [List.mem_cons, List.not_mem_nil, or_false] at member
  rcases member with rfl | rfl | rfl | rfl | rfl | rfl <;> cases digit

theorem Opens.skipGap_eq {c : Char} (opens : Opens c) (rest : List Char) :
    skipGap (c :: rest) = c :: rest := by
  have noGap : ¬isGap c := by
    simp only [Opens, List.mem_cons, List.not_mem_nil, or_false, not_or] at opens
    simp [isGap, opens]
  rw [skipGap, List.dropWhile_cons_of_neg noGap]

/-- A whole number begins with its sign or with a digit. -/
theorem canonicalChars_int_eq_cons (value : Int) : ∃ c more, canonicalChars (.int value) = c :: more ∧
    (Text.isAsciiDigit c ∨ c = '-' ∧ ∃ d more', more = d :: more' ∧ Text.isAsciiDigit d) := by
  obtain ⟨c, digits, shape, digit⟩ := toDigits_eq_cons value.natAbs
  rw [canonicalChars, canonicalCodes, intCodes, spelled_append, spelled_wordCodes, spelled_plainCodes,
    shape]
  split
  · exact ⟨'-', _, rfl, .inr ⟨rfl, c, digits, rfl, digit⟩⟩
  · exact ⟨c, digits, rfl, .inl digit⟩

/-- The text of a value begins with a first character. -/
theorem Proper.canonicalChars_eq_cons {value : Json} (proper : Proper value) :
    ∃ c more, canonicalChars value = c :: more ∧ Opens c := by
  cases proper with
  | null => exact ⟨'n', _, rfl, by decide⟩
  | bool value =>
    cases value
    · exact ⟨'f', _, rfl, by decide⟩
    · exact ⟨'t', _, rfl, by decide⟩
  | int value =>
    obtain ⟨c, more, shape, digit | ⟨rfl, -⟩⟩ := canonicalChars_int_eq_cons value
    · exact ⟨c, more, shape, opens_of_isAsciiDigit digit⟩
    · exact ⟨'-', more, shape, by decide⟩
  | text => exact ⟨'"', _, canonicalChars_text _, by decide⟩
  | array => exact ⟨'[', _, canonicalChars_array _, by decide⟩
  | object => exact ⟨'{', _, canonicalChars_object _, by decide⟩

theorem Proper.skipGap_canonicalChars {value : Json} (proper : Proper value) (rest : List Char) :
    skipGap (canonicalChars value ++ rest) = canonicalChars value ++ rest := by
  obtain ⟨c, more, shape, opens⟩ := proper.canonicalChars_eq_cons
  rw [shape, List.cons_append, opens.skipGap_eq]

theorem Proper.itemChars_eq_cons {item : Json} (proper : Proper item) (items : List Json) :
    ∃ c more, itemChars (item :: items) = c :: more ∧ Opens c := by
  obtain ⟨c, more, shape, opens⟩ := proper.canonicalChars_eq_cons
  cases items with
  | nil => exact ⟨c, more, (itemChars_singleton item).trans shape, opens⟩
  | cons next items =>
    refine ⟨c, more ++ ',' :: itemChars (next :: items), ?_, opens⟩
    rw [itemChars_cons_cons, shape, List.cons_append]

theorem fieldChars_eq_cons (field : String × Json) (fields : List (String × Json)) :
    ∃ more, fieldChars (field :: fields) = '"' :: more := by
  cases fields with
  | nil =>
    rw [fieldChars_singleton, spelled_fieldText]
    exact ⟨_, rfl⟩
  | cons next fields =>
    rw [fieldChars_cons_cons, spelled_fieldText, List.cons_append]
    exact ⟨_, rfl⟩

/-! ## Scalars and arrays -/

/-- A value is read back from the front of its text, whatever may come after it. -/
def ReadBack (value : Json) : Prop :=
  ∀ (allowance : Nat) (rest : List Char), 2 * (canonicalChars value).length ≤ allowance →
    Closes rest → readValue (allowance + 1) (canonicalChars value ++ rest) = .ok (value.arranged, rest)

theorem readValue_digit {c : Char} (digit : Text.isAsciiDigit c) (allowance : Nat)
    (rest : List Char) : readValue (allowance + 1) (c :: rest) = readNumber (c :: rest) := by
  rw [readValue]
  all_goals
    rintro more ⟨⟩
    cases digit

theorem readValue_sign {c : Char} (digit : Text.isAsciiDigit c) (allowance : Nat)
    (rest : List Char) :
    readValue (allowance + 1) ('-' :: c :: rest) = readNumber ('-' :: c :: rest) := by
  rw [readValue]
  all_goals rintro more ⟨⟩
  -- The one word that begins with a sign goes on with a letter.
  cases digit

theorem readBack_int (value : Int) : ReadBack (.int value) := by
  intro allowance rest _ closes
  have read : readNumber (canonicalChars (.int value) ++ rest) = .ok (.int value, rest) :=
    readNumber_intCodes value closes
  obtain ⟨c, more, shape, digit | ⟨rfl, d, more, rfl, digit⟩⟩ := canonicalChars_int_eq_cons value
  · rw [shape] at read ⊢
    exact (readValue_digit digit ..).trans read
  · rw [shape] at read ⊢
    exact (readValue_sign digit ..).trans read

theorem readBack_text {text : String} (formed : Text.isWellFormed text) : ReadBack (.text text) := by
  intro allowance rest _ _
  rw [canonicalChars_text, List.cons_append, List.append_assoc]
  show readValue (allowance + 1)
    ('"' :: (spelled ((Text.codePoints text).flatMap escapeCode) ++ '"' :: rest)) = _
  rw [readValue, readString_stringCodes formed]
  rfl

/-- The last item of an array. -/
theorem readItems_last {allowance : Nat} {input rest : List Char} {item : Json}
    (read : readValue allowance input = .ok (item, ']' :: rest)) (done : List Json) :
    readItems (allowance + 1) done input = .ok (.array (done.reverse ++ [item]), rest) := by
  rw [readItems, read, ← List.reverse_cons]
  rfl

/-- An item with another one after it. -/
theorem readItems_next {allowance : Nat} {input rest : List Char} {item : Json} {c : Char}
    (read : readValue allowance input = .ok (item, ',' :: c :: rest)) (opens : Opens c)
    (done : List Json) :
    readItems (allowance + 1) done input = readItems allowance (item :: done) (c :: rest) := by
  rw [readItems, read]
  show readItems allowance (item :: done) (skipGap (c :: rest)) = _
  rw [opens.skipGap_eq]

/-- The items of an array are read back up to its bracket. -/
theorem readItems_itemChars {item : Json} {items : List Json}
    (proper : ∀ one ∈ item :: items, Proper one) (each : ∀ one ∈ item :: items, ReadBack one)
    {allowance : Nat} (enough : 2 * (itemChars (item :: items)).length ≤ allowance)
    (done : List Json) (rest : List Char) :
    readItems (allowance + 2) done (itemChars (item :: items) ++ ']' :: rest) =
      .ok (.array (done.reverse ++ (item :: items).map arranged), rest) := by
  induction items generalizing item allowance done with
  | nil =>
    rw [itemChars_singleton] at enough ⊢
    exact readItems_last (each item (List.mem_cons_self ..) allowance (']' :: rest) enough
      (by simp [Closes])) done
  | cons next items ih =>
    obtain ⟨readItem, eachRest⟩ := List.forall_mem_cons.mp each
    obtain ⟨-, properRest⟩ := List.forall_mem_cons.mp proper
    obtain ⟨c, more, shape, opens⟩ :=
      (properRest next (List.mem_cons_self ..)).itemChars_eq_cons items
    rw [itemChars_cons_cons] at enough ⊢
    rw [List.length_append, List.length_cons] at enough
    obtain ⟨less, rfl⟩ : ∃ less, allowance = less + 1 := ⟨allowance - 1, by omega⟩
    have read := readItem (less + 1) (',' :: (itemChars (next :: items) ++ ']' :: rest))
      (by omega) (by simp [Closes])
    have fits : 2 * (itemChars (next :: items)).length ≤ less := by omega
    have others := ih properRest eachRest fits (item.arranged :: done)
    rw [shape, List.cons_append] at read others
    rw [List.append_assoc, List.cons_append, shape, List.cons_append, readItems_next read opens,
      others, List.reverse_cons, List.append_assoc]
    rfl

theorem readValue_bracket {c : Char} (opens : Opens c) (allowance : Nat) (rest : List Char) :
    readValue (allowance + 1) ('[' :: c :: rest) = readItems allowance [] (c :: rest) := by
  have notClosed : ∀ left, c :: rest = ']' :: left → False := by
    intro left same
    rw [(List.cons.inj same).1] at opens
    exact absurd opens (by decide)
  simp only [readValue, opens.skipGap_eq]

theorem readBack_array {items : List Json} (proper : ∀ item ∈ items, Proper item)
    (each : ∀ item ∈ items, ReadBack item) : ReadBack (.array items) := by
  intro allowance rest enough _
  rw [canonicalChars_array] at enough ⊢
  cases items with
  | nil => rfl
  | cons item items =>
    obtain ⟨c, more, shape, opens⟩ := (proper item (List.mem_cons_self ..)).itemChars_eq_cons items
    rw [List.length_cons, List.length_append, List.length_singleton] at enough
    obtain ⟨less, rfl⟩ : ∃ less, allowance = less + 2 := ⟨allowance - 2, by omega⟩
    have read := readItems_itemChars proper each (by omega : _ ≤ less) [] rest
    rw [shape, List.cons_append] at read
    rw [List.cons_append, List.append_assoc, shape, List.cons_append, arranged_array]
    exact (readValue_bracket opens ..).trans read

/-! ## Objects -/

/-- Setting a new key puts it last. -/
theorem put_of_not_mem {fields : List (String × Json)} {key : String}
    (new : key ∉ fields.map Prod.fst) (value : Json) :
    put fields key value = fields ++ [(key, value)] := by
  have absent : fields.any (·.1 == key) = false := by
    rw [List.any_eq_false]
    intro field member same
    exact new (List.mem_map.mpr ⟨field, member, eq_of_beq same⟩)
  rw [put, absent]
  rfl

theorem foldl_put_eq_append {fields pairs : List (String × Json)}
    (distinct : ((fields ++ pairs).map Prod.fst).Nodup) :
    pairs.foldl (fun fields pair => put fields pair.1 pair.2) fields = fields ++ pairs := by
  induction pairs generalizing fields with
  | nil => exact (List.append_nil fields).symm
  | cons pair pairs ih =>
    have new : pair.1 ∉ fields.map Prod.fst := by
      rw [List.map_append, List.nodup_append] at distinct
      exact fun member => distinct.2.2 _ member _ (List.mem_cons_self ..) rfl
    rw [List.foldl_cons, put_of_not_mem new, ih (by simpa using distinct), List.append_assoc]
    rfl

/-- Pairs whose keys are distinct are the fields of their object. -/
theorem ofPairs_eq_object {pairs : List (String × Json)} (distinct : (pairs.map Prod.fst).Nodup) :
    ofPairs pairs = .object pairs := by
  rw [ofPairs, foldl_put_eq_append (by simpa using distinct)]
  rfl

section Fields

variable {allowance : Nat} {key : String} {value result : Json} {rest : List Char}

theorem skipGap_colon (rest : List Char) : skipGap (':' :: rest) = ':' :: rest :=
  rfl

/-- The last field of an object. -/
theorem readFields_last (formed : Text.isWellFormed key) (proper : Proper value)
    (read : readValue allowance (canonicalChars value ++ '}' :: rest) = .ok (result, '}' :: rest))
    (done : List (String × Json)) :
    readFields (allowance + 1) done (spelled (fieldText (key, value)) ++ '}' :: rest) =
      .ok (ofPairs (done.reverse ++ [(key, result)]), rest) := by
  rw [spelled_fieldText, List.cons_append, List.append_assoc, List.cons_append, List.cons_append,
    readFields]
  simp only [readString_stringCodes formed, skipGap_colon, proper.skipGap_canonicalChars, read]
  rw [← List.reverse_cons]
  rfl

/-- A field with another one after it. -/
theorem readFields_next (formed : Text.isWellFormed key) (proper : Proper value)
    (read : readValue allowance (canonicalChars value ++ ',' :: '"' :: rest) =
      .ok (result, ',' :: '"' :: rest)) (done : List (String × Json)) :
    readFields (allowance + 1) done (spelled (fieldText (key, value)) ++ ',' :: '"' :: rest) =
      readFields allowance ((key, result) :: done) ('"' :: rest) := by
  rw [spelled_fieldText, List.cons_append, List.append_assoc, List.cons_append, List.cons_append,
    readFields]
  simp only [readString_stringCodes formed, skipGap_colon, proper.skipGap_canonicalChars, read]
  rfl

end Fields

/-- A field whose key and value are read back. -/
structure FieldReadBack (field : String × Json) : Prop where
  formed : Text.isWellFormed field.1
  proper : Proper field.2
  value : ReadBack field.2

/-- The fields of an object are read back up to its bracket. -/
theorem readFields_fieldChars {field : String × Json} {fields : List (String × Json)}
    (each : ∀ one ∈ field :: fields, FieldReadBack one) {allowance : Nat}
    (enough : 2 * (fieldChars (field :: fields)).length ≤ allowance)
    (done : List (String × Json)) (rest : List Char) :
    readFields (allowance + 2) done (fieldChars (field :: fields) ++ '}' :: rest) =
      .ok (ofPairs (done.reverse ++
        (field :: fields).map fun one => (one.1, one.2.arranged)), rest) := by
  induction fields generalizing field allowance done with
  | nil =>
    have first := each field (List.mem_cons_self ..)
    have shorter := length_canonicalChars_lt field
    rw [fieldChars_singleton] at enough ⊢
    have read := first.value allowance ('}' :: rest) (by omega) (by simp [Closes])
    exact readFields_last first.formed first.proper read done
  | cons next fields ih =>
    obtain ⟨first, eachRest⟩ := List.forall_mem_cons.mp each
    have shorter := length_canonicalChars_lt field
    obtain ⟨more, shape⟩ := fieldChars_eq_cons next fields
    rw [fieldChars_cons_cons] at enough ⊢
    rw [List.length_append, List.length_cons] at enough
    obtain ⟨less, rfl⟩ : ∃ less, allowance = less + 1 := ⟨allowance - 1, by omega⟩
    have read := first.value (less + 1) (',' :: (fieldChars (next :: fields) ++ '}' :: rest))
      (by omega) (by simp [Closes])
    have fits : 2 * (fieldChars (next :: fields)).length ≤ less := by omega
    have others := ih eachRest fits ((field.1, field.2.arranged) :: done)
    rw [shape, List.cons_append] at read others
    rw [List.append_assoc, List.cons_append, shape, List.cons_append,
      readFields_next first.formed first.proper read, others, List.reverse_cons, List.append_assoc]
    rfl

theorem readValue_brace (allowance : Nat) (rest : List Char) :
    readValue (allowance + 1) ('{' :: '"' :: rest) = readFields allowance [] ('"' :: rest) :=
  rfl

theorem readBack_object {fields : List (String × Json)} (distinct : (fields.map Prod.fst).Nodup)
    (each : ∀ field ∈ fields, FieldReadBack field) : ReadBack (.object fields) := by
  intro allowance rest enough _
  rw [canonicalChars_object] at enough ⊢
  rw [arranged_object]
  have sortedEach : ∀ field ∈ byKey fields, FieldReadBack field :=
    fun field member => each field ((byKey_perm fields).subset member)
  have sortedKeys :
      (((byKey fields).map fun field => (field.1, field.2.arranged)).map Prod.fst).Nodup := by
    rw [List.map_map]
    exact ((byKey_perm fields).map Prod.fst).nodup_iff.mpr distinct
  generalize byKey fields = sorted at enough sortedEach sortedKeys ⊢
  cases sorted with
  | nil => rfl
  | cons field sorted =>
    obtain ⟨more, shape⟩ := fieldChars_eq_cons field sorted
    rw [List.length_cons, List.length_append, List.length_singleton] at enough
    obtain ⟨less, rfl⟩ : ∃ less, allowance = less + 2 := ⟨allowance - 2, by omega⟩
    have read := readFields_fieldChars sortedEach (by omega : _ ≤ less) [] rest
    rw [List.reverse_nil, List.nil_append, ofPairs_eq_object sortedKeys, shape,
      List.cons_append] at read
    rw [List.cons_append, List.append_assoc, shape, List.cons_append]
    exact (readValue_brace ..).trans read

/-! ## Whole texts -/

/-- Every value is read back from the front of its text. -/
theorem Proper.readBack {value : Json} (proper : Proper value) : ReadBack value := by
  induction proper with
  | null => exact fun allowance rest _ _ => rfl
  | bool value =>
    cases value
    · exact fun allowance rest _ _ => rfl
    · exact fun allowance rest _ _ => rfl
  | int value => exact readBack_int value
  | text formed => exact readBack_text formed
  | array proper ih => exact readBack_array proper ih
  | object distinct formed proper ih =>
    exact readBack_object distinct fun field member =>
      ⟨formed field member, proper field member, ih field member⟩

/-- The text of a value, and nothing else, is read as the value with its keys in order. -/
theorem Proper.read_canonicalChars {value : Json} (proper : Proper value) :
    read (canonicalChars value) = .ok value.arranged := by
  obtain ⟨c, more, shape, opens⟩ := proper.canonicalChars_eq_cons
  have noMark : (canonicalChars value).head? ≠ some '\uFEFF' := by
    rw [shape]
    rintro ⟨⟩
    exact absurd opens (by decide)
  have whole := proper.readBack (2 * (canonicalChars value).length + 1) [] (by omega) (by simp [Closes])
  have gap := proper.skipGap_canonicalChars []
  rw [List.append_nil] at whole gap
  rw [read, if_neg noMark, gap, whole]
  rfl

end ApiDelta.Json
