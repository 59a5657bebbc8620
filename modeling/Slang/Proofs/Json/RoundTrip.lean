import Slang.Proofs.Json.Scalar

/-!
# Reading back laid out values

A value is read back from its layout if its integers can be written and no two fields of an object
have the same key.  Texts may hold any characters and numbers may be any doubles.
-/

namespace Slang.Json

/-! ## Texts -/

theorem codeUnit?_append {cs : List Char} {unit : Nat} (rest : List Char)
    (h : codeUnit? cs = some (unit, [])) : codeUnit? (cs ++ rest) = some (unit, rest) := by
  match cs with
  | [] | [_] | [_, _] | [_, _, _] => simp [codeUnit?] at h
  | a :: b :: c :: d :: later =>
    simp only [codeUnit?, Option.bind_eq_bind, Option.bind_eq_some_iff, Option.pure_def,
      Option.some.injEq, Prod.mk.injEq, List.cons_append] at h ⊢
    obtain ⟨w, hw, x, hx, y, hy, z, hz, hunit, rfl⟩ := h
    exact ⟨w, hw, x, hx, y, hy, z, hz, hunit, rfl⟩

theorem unicodeEscape?_hex {n : Nat} (h : n < 0x20) (rest : List Char) :
    unicodeEscape? (Text.hex 4 n ++ rest) = some (Char.ofNat n, rest) := by
  have hall : ∀ n < 0x20, codeUnit? (Text.hex 4 n) = some (n, []) := by decide
  have hunit := codeUnit?_append rest (hall n h)
  have hhigh : ¬(0xd800 ≤ n ∧ n < 0xdc00) := by omega
  have hpair : ¬(0xd800 ≤ n ∧ n < 0xe000) := by omega
  simp [unicodeEscape?, hunit, hhigh, unitChar, hpair]

theorem readChars_backslash {c : Char} {after rest : List Char} (steps : Nat)
    (h : escapeChar? after = some (c, rest)) :
    readChars (steps + 1) ('\\' :: after) =
      (readChars steps rest).map fun (ds, later) => (c :: ds, later) := by
  rw [readChars, if_neg (by decide), if_pos rfl, h]

theorem eq_ofNat_of_toNat_eq {c : Char} {n : Nat} (h : c.toNat = n) : c = Char.ofNat n := by
  rw [← h, Char.ofNat_toNat]

/-- An escaped character is read as that character. -/
theorem readChars_escape (c : Char) (steps : Nat) (rest : List Char) :
    readChars (steps + 1) (escape c ++ rest) =
      (readChars steps rest).map fun (ds, later) => (c :: ds, later) := by
  unfold escape
  split_ifs with hmark hbreak hreturn htab hback hfeed hcontrol
  · rw [Bool.or_eq_true, decide_eq_true_eq, decide_eq_true_eq] at hmark
    rcases hmark with rfl | rfl <;> exact readChars_backslash steps rfl
  · subst hbreak
    exact readChars_backslash steps rfl
  · subst hreturn
    exact readChars_backslash steps rfl
  · subst htab
    exact readChars_backslash steps rfl
  · rw [eq_ofNat_of_toNat_eq hback]
    exact readChars_backslash steps rfl
  · rw [eq_ofNat_of_toNat_eq hfeed]
    exact readChars_backslash steps rfl
  · have hescape := unicodeEscape?_hex hcontrol rest
    rw [Char.ofNat_toNat] at hescape
    exact readChars_backslash steps hescape
  · rw [Bool.or_eq_true, decide_eq_true_eq, decide_eq_true_eq, not_or] at hmark
    rw [List.singleton_append, readChars, if_neg hmark.1, if_neg hmark.2, if_neg hcontrol]

theorem escape_ne_nil (c : Char) : escape c ≠ [] := by
  unfold escape
  split_ifs <;> simp

theorem length_le_length_escaped (cs : List Char) : cs.length ≤ (cs.flatMap escape).length := by
  induction cs with
  | nil => simp
  | cons c later ih =>
    have hpos : 0 < (escape c).length := List.length_pos_iff.2 (escape_ne_nil c)
    rw [List.flatMap_cons, List.length_append, List.length_cons]
    omega

theorem readChars_escaped {cs : List Char} {steps : Nat} (h : cs.length < steps)
    (rest : List Char) : readChars steps (cs.flatMap escape ++ '"' :: rest) = .ok (cs, rest) := by
  induction cs generalizing steps with
  | nil =>
    obtain ⟨k, rfl⟩ : ∃ k, steps = k + 1 := ⟨steps - 1, by omega⟩
    rfl
  | cons c later ih =>
    obtain ⟨k, rfl⟩ : ∃ k, steps = k + 1 := ⟨steps - 1, by omega⟩
    rw [List.length_cons] at h
    rw [List.flatMap_cons, List.append_assoc, readChars_escape, ih (by omega)]
    rfl

/-- A text is read back after its opening quote. -/
theorem readText_escaped (s : String) (rest : List Char) :
    readText (s.toList.flatMap escape ++ '"' :: rest) = .ok (s, rest) := by
  have hlength := length_le_length_escaped s.toList
  rw [readText, readChars_escaped (by rw [List.length_append]; omega)]
  simp [Except.map]

theorem toList_quote (s : String) :
    (quote s).toList = '"' :: (s.toList.flatMap escape ++ ['"']) := by
  rw [quote, String.toList_ofList]
  rfl

/-! ## Blanks -/

/-- A character that no value can start with, or that closes or separates values. -/
def isBreak (c : Char) : Bool :=
  c == ' ' || c == '\t' || c == '\n' || c == '\r' || c == ',' || c == ':' || c == ']' || c == '\x7d'

/-- The text starts with a character that a value can start with. -/
def StartsValue (cs : List Char) : Prop :=
  ∃ c later, cs = c :: later ∧ isBreak c = false

theorem StartsValue.append {cs : List Char} (h : StartsValue cs) (rest : List Char) :
    StartsValue (cs ++ rest) := by
  obtain ⟨c, later, rfl, hc⟩ := h
  exact ⟨c, later ++ rest, rfl, hc⟩

theorem StartsValue.skipBlanks_eq {cs : List Char} (h : StartsValue cs) : skipBlanks cs = cs := by
  obtain ⟨c, later, rfl, hc⟩ := h
  simp only [isBreak, Bool.or_eq_false_iff] at hc
  simp [skipBlanks, hc]

theorem toList_newLine (level : Nat) :
    (newLine level).toList = '\n' :: List.replicate (2 * level) ' ' := by
  simp [newLine]

theorem skipBlanks_newLine (level : Nat) (rest : List Char) :
    skipBlanks ((newLine level).toList ++ rest) = skipBlanks rest := by
  rw [toList_newLine, skipBlanks, List.dropWhile_append_of_pos]
  · rfl
  · intro c hc
    rcases List.mem_cons.1 hc with rfl | hc
    · rfl
    · rw [List.eq_of_mem_replicate hc]
      rfl

/-! ## One step of the reader -/

section Steps

variable {steps : Nat} {cs later rest : List Char}

theorem readItems_last {item : Json} (found : List Json)
    (hitem : readValue steps cs = .ok (item, later)) (hclose : skipBlanks later = ']' :: rest) :
    readItems (steps + 1) found cs = .ok (found ++ [item], rest) := by
  simp [readItems, hitem, hclose, bind, Except.bind]

theorem readItems_next {item : Json} (found : List Json)
    (hitem : readValue steps cs = .ok (item, later)) (hcomma : skipBlanks later = ',' :: rest) :
    readItems (steps + 1) found cs = readItems steps (found ++ [item]) (skipBlanks rest) := by
  simp [readItems, hitem, hcomma, bind, Except.bind]

theorem readFields_last {key : String} {item : Json} {afterQuote afterKey afterColon : List Char}
    (found : List (String × Json)) (hkey : readText afterQuote = .ok (key, afterKey))
    (hcolon : skipBlanks afterKey = ':' :: afterColon)
    (hitem : readValue steps (skipBlanks afterColon) = .ok (item, later))
    (hclose : skipBlanks later = '}' :: rest) :
    readFields (steps + 1) found ('"' :: afterQuote) = .ok (setField found key item, rest) := by
  simp [readFields, hkey, hcolon, hitem, hclose, bind, Except.bind]

theorem readFields_next {key : String} {item : Json} {afterQuote afterKey afterColon : List Char}
    (found : List (String × Json)) (hkey : readText afterQuote = .ok (key, afterKey))
    (hcolon : skipBlanks afterKey = ':' :: afterColon)
    (hitem : readValue steps (skipBlanks afterColon) = .ok (item, later))
    (hcomma : skipBlanks later = ',' :: rest) :
    readFields (steps + 1) found ('"' :: afterQuote) =
      readFields steps (setField found key item) (skipBlanks rest) := by
  simp [readFields, hkey, hcolon, hitem, hcomma, bind, Except.bind]

theorem readValue_array {items : List Json} (hstart : StartsValue (skipBlanks cs))
    (hitems : readItems steps [] (skipBlanks cs) = .ok (items, rest)) :
    readValue (steps + 1) ('[' :: cs) = .ok (.array items, rest) := by
  obtain ⟨c, later, hcs, hc⟩ := hstart
  rw [hcs] at hitems
  simp only [readValue, hcs]
  split
  case h_1 heq =>
    rw [(List.cons.inj heq).1] at hc
    cases hc
  case h_2 =>
    rw [hitems]
    rfl

theorem readValue_object {fields : List (String × Json)} (hstart : StartsValue (skipBlanks cs))
    (hfields : readFields steps [] (skipBlanks cs) = .ok (fields, rest)) :
    readValue (steps + 1) ('{' :: cs) = .ok (.object fields, rest) := by
  obtain ⟨c, later, hcs, hc⟩ := hstart
  rw [hcs] at hfields
  simp only [readValue, hcs]
  split
  case h_1 heq =>
    rw [(List.cons.inj heq).1] at hc
    cases hc
  case h_2 =>
    rw [hfields]
    rfl

end Steps

/-! ## Scalars -/

/-- A character that a word or a number can start with. -/
def startsScalar (c : Char) : Bool :=
  isDigit c || ['n', 't', 'f', 'N', 'I', '-'].contains c

theorem exists_start_of_readScalar {cs : List Char} {found : Json × List Char}
    (h : readScalar cs = .ok found) : ∃ c later, cs = c :: later ∧ startsScalar c = true := by
  unfold readScalar at h
  split at h
  case h_1 parsed hword =>
    obtain ⟨entry, hentry, hparsed⟩ := List.exists_of_findSome?_eq_some hword
    obtain ⟨rest, hafter, -⟩ := Option.map_eq_some_iff.1 hparsed
    have hall : ∀ entry ∈ words, entry.1.toList.head?.any startsScalar = true := by decide
    obtain ⟨c, hc, hstart⟩ := (Option.any_eq_true _ _).1 (hall entry hentry)
    obtain ⟨ws, hws⟩ := List.head?_eq_some_iff.1 hc
    rw [eq_append_of_after? hafter, hws]
    exact ⟨c, ws ++ rest, rfl, hstart⟩
  case h_2 =>
    split at h
    · exact ⟨_, _, rfl, rfl⟩
    · obtain ⟨c, later, rfl, hc⟩ := exists_digit_of_readNumber h
      exact ⟨c, later, rfl, by simp [startsScalar, hc]⟩

theorem not_startsScalar {c : Char} (h : startsScalar c = true) :
    isBreak c = false ∧ c ≠ '"' ∧ c ≠ '[' ∧ c ≠ '{' := by
  refine ⟨?_, ?_, ?_, ?_⟩
  · by_contra hbreak
    simp only [isBreak, Bool.not_eq_false, Bool.or_eq_true, beq_iff_eq] at hbreak
    rcases hbreak with ((((((rfl | rfl) | rfl) | rfl) | rfl) | rfl) | rfl) | rfl <;>
      exact absurd h (by decide)
  all_goals
    rintro rfl
    exact absurd h (by decide)

theorem startsValue_of_readScalar {text : List Char} {found : Json × List Char}
    (h : readScalar text = .ok found) : StartsValue text := by
  obtain ⟨c, later, rfl, hc⟩ := exists_start_of_readScalar h
  exact ⟨c, later, rfl, (not_startsScalar hc).1⟩

theorem readValue_scalar {steps : Nat} {cs : List Char} {found : Json × List Char}
    (h : readScalar cs = .ok found) : readValue (steps + 1) cs = .ok found := by
  obtain ⟨c, later, rfl, hc⟩ := exists_start_of_readScalar h
  obtain ⟨-, hquote, hbracket, hbrace⟩ := not_startsScalar hc
  unfold readValue
  split <;> simp_all

/-! ## Layout -/

/-- Lines of a list or an object, as they stand between its brackets. -/
def joined (level : Nat) (lines : List String) : List Char :=
  (("," ++ newLine level).intercalate lines).toList

theorem joined_singleton (level : Nat) (line : String) : joined level [line] = line.toList := by
  rw [joined, String.intercalate_singleton]

theorem joined_cons_cons (level : Nat) (line next : String) (later : List String) :
    joined level (line :: next :: later) =
      line.toList ++ ',' :: ((newLine level).toList ++ joined level (next :: later)) := by
  rw [joined, String.intercalate_cons_cons, joined]
  simp

theorem toList_enclose {lines : List String} (opening closing : String) (level : Nat)
    (h : lines ≠ []) :
    (enclose opening closing level lines).toList =
      opening.toList ++ ((newLine (level + 1)).toList ++
        (joined (level + 1) lines ++ ((newLine level).toList ++ closing.toList))) := by
  have hne : lines.isEmpty = false := List.isEmpty_eq_false_iff.2 h
  simp [enclose, hne, joined]

theorem startsValue_enclose {c : Char} (hc : isBreak c = false) (closing : String) (level : Nat)
    (lines : List String) : StartsValue (enclose (String.ofList [c]) closing level lines).toList := by
  unfold enclose
  split
  · exact ⟨c, closing.toList, by simp, hc⟩
  · simp only [String.toList_append, String.toList_ofList, List.append_assoc]
    exact ⟨c, _, rfl, hc⟩

theorem isDelimited_newLine (level : Nat) (rest : List Char) :
    IsDelimited ((newLine level).toList ++ rest) := by
  rw [toList_newLine]
  rintro c ⟨⟩
  exact .inr rfl

theorem isDelimited_comma (rest : List Char) : IsDelimited (',' :: rest) := by
  rintro c ⟨⟩
  exact .inl rfl

theorem isDelimited_nil : IsDelimited [] := by
  rintro c ⟨⟩

/-! ## Values -/

mutual

/-- The integers of a value can be written, and the keys of each of its objects differ. -/
def IsLegible : Json → Prop
  | .integer value => isWritable value = true
  | .array items => IsLegibleItems items
  | .object fields => (fields.map Prod.fst).Nodup ∧ IsLegibleFields fields
  | _ => True

/-- Every item of a list is legible. -/
def IsLegibleItems : List Json → Prop
  | [] => True
  | item :: later => IsLegible item ∧ IsLegibleItems later

/-- Every field of an object is legible. -/
def IsLegibleFields : List (String × Json) → Prop
  | [] => True
  | field :: later => IsLegibleField field ∧ IsLegibleFields later

/-- The value of a field is legible. -/
def IsLegibleField : String × Json → Prop
  | (_, value) => IsLegible value

end

theorem startsValue_pretty (level : Nat) {j : Json} (h : j.IsLegible) :
    StartsValue (pretty level j).toList := by
  cases j with
  | null =>
    rw [pretty]
    exact ⟨'n', _, rfl, rfl⟩
  | boolean value =>
    rw [pretty]
    cases value
    · exact ⟨'f', _, rfl, rfl⟩
    · exact ⟨'t', _, rfl, rfl⟩
  | integer value =>
    rw [IsLegible] at h
    have hread := readScalar_intText h isDelimited_nil
    rw [List.append_nil] at hread
    rw [pretty]
    exact startsValue_of_readScalar hread
  | number value =>
    have hread := readScalar_numberText value isDelimited_nil
    rw [List.append_nil] at hread
    rw [pretty]
    exact startsValue_of_readScalar hread
  | text value =>
    rw [pretty, toList_quote]
    exact ⟨'"', _, rfl, rfl⟩
  | array items =>
    rw [pretty]
    exact startsValue_enclose (by decide : isBreak '[' = false) _ _ _
  | object fields =>
    rw [pretty]
    exact startsValue_enclose (by decide : isBreak '{' = false) _ _ _

theorem startsValue_joined (level : Nat) {line : String} (later : List String)
    (h : StartsValue line.toList) : StartsValue (joined level (line :: later)) := by
  cases later with
  | nil =>
    rw [joined_singleton]
    exact h
  | cons next others =>
    rw [joined_cons_cons]
    exact h.append _

/-- After the line break, the lines of a list or an object are reached. -/
theorem skipBlanks_lines {cs : List Char} (level : Nat) (rest : List Char) (h : StartsValue cs) :
    skipBlanks ((newLine level).toList ++ (cs ++ rest)) = cs ++ rest := by
  rw [skipBlanks_newLine]
  exact (h.append rest).skipBlanks_eq

theorem skipBlanks_closing (level : Nat) {c : Char} (rest : List Char)
    (hc : c = ']' ∨ c = '}') : skipBlanks ((newLine level).toList ++ c :: rest) = c :: rest := by
  rw [skipBlanks_newLine]
  rcases hc with rfl | rfl <;> rfl

theorem setField_of_not_mem {fields : List (String × Json)} {key : String} (value : Json)
    (h : key ∉ fields.map Prod.fst) : setField fields key value = fields ++ [(key, value)] := by
  have hfresh : fields.any (·.1 == key) = false := by
    rw [List.any_eq_false]
    intro field hfield heq
    exact h (List.mem_map.2 ⟨field, hfield, eq_of_beq heq⟩)
  simp [setField, hfresh]

theorem startsValue_items (level : Nat) {items : List Json} (h : IsLegibleItems items)
    (hne : items ≠ []) : StartsValue (joined level (prettyItems level items)) := by
  obtain ⟨item, later, rfl⟩ := List.exists_cons_of_ne_nil hne
  rw [IsLegibleItems] at h
  rw [prettyItems]
  exact startsValue_joined level _ (startsValue_pretty level h.1)

/-- A value is read back from its layout, on any level and whatever follows it there. -/
def Reads (j : Json) : Prop :=
  ∀ (level steps : Nat) (rest : List Char), IsDelimited rest →
    (pretty level j).toList.length ≤ steps →
      readValue steps ((pretty level j).toList ++ rest) = .ok (j, rest)

/-- The items of a list are read back from their lines, behind those that have been found. -/
def ItemsRead (items : List Json) : Prop :=
  ∀ (level outer steps : Nat) (rest : List Char) (found : List Json),
    (joined level (prettyItems level items)).length < steps →
      readItems steps found (joined level (prettyItems level items) ++
        ((newLine outer).toList ++ ']' :: rest)) = .ok (found ++ items, rest)

theorem exists_steps {level steps : Nat} {j : Json} (h : j.IsLegible)
    (hsteps : (pretty level j).toList.length ≤ steps) : ∃ k, steps = k + 1 := by
  obtain ⟨c, later, hstart, -⟩ := startsValue_pretty level h
  rw [hstart, List.length_cons] at hsteps
  exact ⟨steps - 1, by omega⟩

theorem reads_of_readScalar {j : Json} (hlegible : j.IsLegible)
    (h : ∀ (level : Nat) (rest : List Char), IsDelimited rest →
      readScalar ((pretty level j).toList ++ rest) = .ok (j, rest)) : Reads j := by
  intro level steps rest hrest hsteps
  obtain ⟨k, rfl⟩ := exists_steps hlegible hsteps
  exact readValue_scalar (h level rest hrest)

theorem reads_text (value : String) : Reads (.text value) := by
  intro level steps rest hrest hsteps
  obtain ⟨k, rfl⟩ := exists_steps (j := .text value) trivial hsteps
  rw [pretty, toList_quote]
  simp [readValue, readText_escaped, Except.map]

theorem reads_array {items : List Json} (hlegible : IsLegibleItems items)
    (h : items ≠ [] → ItemsRead items) : Reads (.array items) := by
  intro level steps rest hrest hsteps
  obtain ⟨k, rfl⟩ := exists_steps (j := .array items) (by rwa [IsLegible]) hsteps
  by_cases hne : items = []
  · subst hne
    simp [pretty, prettyItems, enclose, readValue, skipBlanks]
  · have hstart := startsValue_items (level + 1) hlegible hne
    have hlines : prettyItems (level + 1) items ≠ [] := by
      obtain ⟨item, later, rfl⟩ := List.exists_cons_of_ne_nil hne
      simp [prettyItems]
    rw [pretty, toList_enclose _ _ _ hlines] at hsteps ⊢
    have hskip := skipBlanks_lines (level + 1) ((newLine level).toList ++ ']' :: rest) hstart
    have hsteps' : (joined (level + 1) (prettyItems (level + 1) items)).length < k := by
      simp [toList_newLine] at hsteps
      omega
    have hitems := h hne (level + 1) level k rest [] hsteps'
    rw [← hskip] at hitems
    have hread := readValue_array (by rw [hskip]; exact hstart.append _) hitems
    simpa using hread

theorem itemsRead_singleton {item : Json} (h : Reads item) : ItemsRead [item] := by
  intro level outer steps rest found hsteps
  obtain ⟨k, rfl⟩ : ∃ k, steps = k + 1 := ⟨steps - 1, by omega⟩
  rw [prettyItems, prettyItems, joined_singleton] at hsteps ⊢
  have hitem := h level k _ (isDelimited_newLine outer (']' :: rest)) (Nat.le_of_lt_succ hsteps)
  exact readItems_last found hitem (skipBlanks_closing outer rest (.inl rfl))

theorem itemsRead_cons {item next : Json} {later : List Json}
    (hlegible : IsLegibleItems (next :: later)) (hitem : Reads item)
    (hlater : ItemsRead (next :: later)) : ItemsRead (item :: next :: later) := by
  intro level outer steps rest found hsteps
  obtain ⟨k, rfl⟩ : ∃ k, steps = k + 1 := ⟨steps - 1, by omega⟩
  have hlines : joined level (prettyItems level (item :: next :: later)) =
      (pretty level item).toList ++ ',' :: ((newLine level).toList ++
        joined level (prettyItems level (next :: later))) := by
    rw [prettyItems, prettyItems, joined_cons_cons]
  have hstart := startsValue_items level hlegible (by simp)
  have hskip := skipBlanks_lines level ((newLine outer).toList ++ ']' :: rest) hstart
  rw [hlines] at hsteps ⊢
  rw [List.length_append, List.length_cons, List.length_append] at hsteps
  rw [List.append_assoc, List.cons_append, List.append_assoc]
  rw [readItems_next found (hitem level k _ (isDelimited_comma _) (by omega)) rfl, hskip,
    hlater level outer k rest (found ++ [item]) (by omega)]
  simp

/-! ## Fields -/

/-- The fields of an object are read back from their lines, behind those that have been found, if no
two of them all have the same key. -/
def FieldsRead (fields : List (String × Json)) : Prop :=
  ∀ (level outer steps : Nat) (rest : List Char) (found : List (String × Json)),
    ((found ++ fields).map Prod.fst).Nodup →
    (joined level (prettyFields level fields)).length < steps →
      readFields steps found (joined level (prettyFields level fields) ++
        ((newLine outer).toList ++ '}' :: rest)) = .ok (found ++ fields, rest)

theorem toList_prettyField_append (level : Nat) (key : String) (value : Json) (rest : List Char) :
    (prettyField level (key, value)).toList ++ rest =
      '"' :: (key.toList.flatMap escape ++ '"' :: ':' :: ' ' ::
        ((pretty level value).toList ++ rest)) := by
  simp [prettyField, toList_quote]

theorem length_pretty_lt (level : Nat) (key : String) (value : Json) :
    (pretty level value).toList.length < (prettyField level (key, value)).toList.length := by
  have h := congrArg List.length (toList_prettyField_append level key value [])
  simp at h ⊢
  omega

theorem startsValue_prettyField (level : Nat) (field : String × Json) :
    StartsValue (prettyField level field).toList := by
  obtain ⟨key, value⟩ := field
  have h := toList_prettyField_append level key value []
  rw [List.append_nil] at h
  exact ⟨'"', _, h, rfl⟩

theorem startsValue_fields (level : Nat) {fields : List (String × Json)} (hne : fields ≠ []) :
    StartsValue (joined level (prettyFields level fields)) := by
  obtain ⟨field, later, rfl⟩ := List.exists_cons_of_ne_nil hne
  rw [prettyFields]
  exact startsValue_joined level _ (startsValue_prettyField level field)

theorem not_mem_of_nodup {found later : List (String × Json)} {key : String} {value : Json}
    (h : ((found ++ (key, value) :: later).map Prod.fst).Nodup) : key ∉ found.map Prod.fst := by
  rw [List.map_append, List.map_cons, List.nodup_append] at h
  intro hmem
  exact h.2.2 key hmem key (by simp) rfl

/-- The value of a field is read back after the colon and a blank. -/
theorem readValue_of_field {level steps : Nat} {value : Json} {rest : List Char} (key : String)
    (hlegible : value.IsLegible) (h : Reads value) (hrest : IsDelimited rest)
    (hsteps : (prettyField level (key, value)).toList.length ≤ steps) :
    readValue steps (skipBlanks (' ' :: ((pretty level value).toList ++ rest))) =
      .ok (value, rest) := by
  have hlength := length_pretty_lt level key value
  have hskip : skipBlanks (' ' :: ((pretty level value).toList ++ rest)) =
      (pretty level value).toList ++ rest :=
    ((startsValue_pretty level hlegible).append _).skipBlanks_eq
  rw [hskip]
  exact h level steps rest hrest (by omega)

theorem fieldsRead_singleton {key : String} {value : Json} (hlegible : value.IsLegible)
    (h : Reads value) : FieldsRead [(key, value)] := by
  intro level outer steps rest found hkeys hsteps
  obtain ⟨k, rfl⟩ : ∃ k, steps = k + 1 := ⟨steps - 1, by omega⟩
  rw [prettyFields, prettyFields, joined_singleton] at hsteps ⊢
  have hvalue := readValue_of_field key hlegible h (isDelimited_newLine outer ('}' :: rest))
    (Nat.le_of_lt_succ hsteps)
  rw [toList_prettyField_append, readFields_last found (readText_escaped key _) rfl hvalue
    (skipBlanks_closing outer rest (.inr rfl)), setField_of_not_mem value (not_mem_of_nodup hkeys)]

theorem fieldsRead_cons {key : String} {value : Json} {next : String × Json}
    {later : List (String × Json)} (hlegible : value.IsLegible) (h : Reads value)
    (hlater : FieldsRead (next :: later)) : FieldsRead ((key, value) :: next :: later) := by
  intro level outer steps rest found hkeys hsteps
  obtain ⟨k, rfl⟩ : ∃ k, steps = k + 1 := ⟨steps - 1, by omega⟩
  have hlines : joined level (prettyFields level ((key, value) :: next :: later)) =
      (prettyField level (key, value)).toList ++ ',' :: ((newLine level).toList ++
        joined level (prettyFields level (next :: later))) := by
    rw [prettyFields, prettyFields, joined_cons_cons]
  have hstart := startsValue_fields level (List.cons_ne_nil next later)
  have hskip := skipBlanks_lines level ((newLine outer).toList ++ '}' :: rest) hstart
  have hkeys' : ((found ++ [(key, value)] ++ next :: later).map Prod.fst).Nodup := by
    rwa [List.append_assoc, List.singleton_append]
  rw [hlines] at hsteps ⊢
  rw [List.length_append, List.length_cons, List.length_append] at hsteps
  rw [List.append_assoc, List.cons_append, List.append_assoc, toList_prettyField_append]
  have hfield : (prettyField level (key, value)).toList.length ≤ k := by omega
  rw [readFields_next found (readText_escaped key _) rfl
      (readValue_of_field key hlegible h (isDelimited_comma _) hfield) rfl,
    hskip, setField_of_not_mem value (not_mem_of_nodup hkeys),
    hlater level outer k rest _ hkeys' (by omega)]
  simp

theorem reads_object {fields : List (String × Json)} (hlegible : IsLegible (.object fields))
    (h : fields ≠ [] → FieldsRead fields) : Reads (.object fields) := by
  intro level steps rest hrest hsteps
  obtain ⟨k, rfl⟩ := exists_steps hlegible hsteps
  by_cases hne : fields = []
  · subst hne
    simp [pretty, prettyFields, enclose, readValue, skipBlanks]
  · have hstart := startsValue_fields (level + 1) hne
    have hlines : prettyFields (level + 1) fields ≠ [] := by
      obtain ⟨field, later, rfl⟩ := List.exists_cons_of_ne_nil hne
      simp [prettyFields]
    rw [pretty, toList_enclose _ _ _ hlines] at hsteps ⊢
    have hskip := skipBlanks_lines (level + 1) ((newLine level).toList ++ '}' :: rest) hstart
    have hsteps' : (joined (level + 1) (prettyFields (level + 1) fields)).length < k := by
      simp [toList_newLine] at hsteps
      omega
    have hkeys : (([] ++ fields).map Prod.fst).Nodup := by
      rw [IsLegible] at hlegible
      exact hlegible.1
    have hfields := h hne (level + 1) level k rest [] hkeys hsteps'
    rw [← hskip] at hfields
    have hread := readValue_object (by rw [hskip]; exact hstart.append _) hfields
    simpa using hread

/-! ## All values -/

mutual

theorem reads_of_isLegible (j : Json) (h : j.IsLegible) : Reads j := by
  match j with
  | .null =>
    refine reads_of_readScalar h fun level rest hrest => ?_
    rw [pretty]
    rfl
  | .boolean value =>
    refine reads_of_readScalar h fun level rest hrest => ?_
    rw [pretty]
    cases value <;> rfl
  | .integer value =>
    refine reads_of_readScalar h fun level rest hrest => ?_
    rw [IsLegible] at h
    rw [pretty]
    exact readScalar_intText h hrest
  | .number value =>
    refine reads_of_readScalar h fun level rest hrest => ?_
    rw [pretty]
    exact readScalar_numberText value hrest
  | .text value => exact reads_text value
  | .array items =>
    rw [IsLegible] at h
    exact reads_array h (itemsRead_of_isLegible items h)
  | .object fields =>
    have hfields : IsLegibleFields fields := by
      rw [IsLegible] at h
      exact h.2
    exact reads_object h (fieldsRead_of_isLegible fields hfields)
termination_by structural j

theorem itemsRead_of_isLegible (items : List Json) (h : IsLegibleItems items) (hne : items ≠ []) :
    ItemsRead items := by
  match items with
  | [] => contradiction
  | item :: later =>
    rw [IsLegibleItems] at h
    have hitem := reads_of_isLegible item h.1
    have hlater := itemsRead_of_isLegible later h.2
    cases later with
    | nil => exact itemsRead_singleton hitem
    | cons next others => exact itemsRead_cons h.2 hitem (hlater (by simp))
termination_by structural items

theorem fieldsRead_of_isLegible (fields : List (String × Json)) (h : IsLegibleFields fields)
    (hne : fields ≠ []) : FieldsRead fields := by
  match fields with
  | [] => contradiction
  | field :: later =>
    rw [IsLegibleFields] at h
    have hfield := reads_of_isLegibleField field h.1
    have hlater := fieldsRead_of_isLegible later h.2
    obtain ⟨key, value⟩ := field
    rw [IsLegibleField] at h
    cases later with
    | nil => exact fieldsRead_singleton h.1 hfield
    | cons next others => exact fieldsRead_cons h.1 hfield (hlater (by simp))
termination_by structural fields

theorem reads_of_isLegibleField (field : String × Json) (h : IsLegibleField field) :
    Reads field.2 := by
  match field with
  | (key, value) =>
    rw [IsLegibleField] at h
    exact reads_of_isLegible value h
termination_by structural field

end

/-- A legible value is read back from its layout. -/
theorem parse_render {j : Json} (h : j.IsLegible) : parse j.render = .ok j := by
  have hstart := startsValue_pretty 0 h
  have hread := reads_of_isLegible j h 0 (2 * j.render.toList.length + 2) [] isDelimited_nil
    (by rw [render]; omega)
  rw [List.append_nil] at hread
  simp only [parse, render] at hread ⊢
  rw [hstart.skipBlanks_eq]
  simp [hread, bind, Except.bind, skipBlanks]

end Slang.Json
