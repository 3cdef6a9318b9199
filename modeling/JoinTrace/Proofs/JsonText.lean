import JoinTrace.Proofs.JsonForms
import JoinTrace.Proofs.JsonNumber

namespace JoinTrace.Json
open Numeral

section Texts

theorem value_escape {code : Nat} (low : code < 32) :
    [Nat.digitChar (code/16), Nat.digitChar (code%16)].all (isDigitOf 16) = true ∧
      value 16 ['0', '0', Nat.digitChar (code/16), Nat.digitChar (code%16)] = code := by
  have each : ∀ code < 32, [Nat.digitChar (code/16), Nat.digitChar (code%16)].all (isDigitOf 16) = true ∧
      value 16 ['0', '0', Nat.digitChar (code/16), Nat.digitChar (code%16)] = code := by decide
  exact each code low

theorem units_plain {c : Char} (quote : c ≠ '"') (slash : c ≠ '\\') (rest : List Char)
    (found : List Nat) : units (c :: rest) found =
      if c.toNat < 0x20 then none else units rest (c.toNat :: found) := by
  rw [units] <;> simp_all

theorem simpleEscape?_short {c mark : Char} (short : shortEscape? c = some mark) :
    mark ≠ 'u' ∧ simpleEscape? mark = some c := by
  unfold shortEscape? at short
  split at short <;> cases short <;> decide

theorem units_simple {c mark : Char} (other : mark ≠ 'u') (simple : simpleEscape? mark = some c)
    (rest : List Char) (found : List Nat) :
    units ('\\' :: mark :: rest) found = units rest (c.toNat :: found) := by
  rw [units] <;> simp_all

theorem units_escaped (c : Char) (rest : List Char) (found : List Nat) :
    units (escaped c ++ rest) found = units rest (c.toNat :: found) := by
  unfold escaped
  cases short : shortEscape? c with
  | some mark =>
    obtain ⟨other,simple⟩ := simpleEscape?_short short
    exact units_simple other simple rest found
  | none =>
    dsimp only
    split
    next low =>
      obtain ⟨digits,code⟩ := value_escape low
      have zero : isDigitOf 16 '0' = true := by decide
      simp only [List.cons_append,List.nil_append,units]
      rw [if_pos (by simpa [zero] using digits),code]
    next high =>
      have quote : c ≠ '"' := by rintro rfl; cases short
      have slash : c ≠ '\\' := by rintro rfl; cases short
      rw [List.cons_append,List.nil_append,units_plain quote slash,if_neg high]

theorem units_text (cs rest : List Char) (found : List Nat) :
    units (cs.flatMap escaped ++ '"' :: rest) found =
      some (found.reverse ++ cs.map Char.toNat,rest) := by
  induction cs generalizing found with
  | nil => simp [units]
  | cons c cs ih =>
    rw [List.flatMap_cons,List.append_assoc,units_escaped,ih]
    simp

theorem toNat_plain (c : Char) : ¬ (0xD800 ≤ c.toNat ∧ c.toNat < 0xE000) := by
  have valid := c.valid
  have code : c.val.toNat = c.toNat := rfl
  simp only [UInt32.isValidChar,Nat.isValidChar] at valid
  omega

theorem characters_toNat (cs : List Char) : characters (cs.map Char.toNat) = some cs := by
  induction cs with
  | nil => rfl
  | cons c cs ih =>
    have plain := toNat_plain c
    cases cs with
    | nil => simp [characters,plain,Char.ofNat_toNat]
    | cons next cs =>
      have single : ¬ (0xD800 ≤ c.toNat ∧ c.toNat < 0xDC00 ∧ 0xDC00 ≤ next.toNat ∧
        next.toNat < 0xE000) := by omega
      simp only [List.map_cons] at ih ⊢
      rw [characters,if_neg single,if_neg plain,ih]
      simp [Char.ofNat_toNat]

theorem toList_quote (text : String) :
    (quote text).toList = '"' :: (text.toList.flatMap escaped ++ ['"']) := by
  simp [quote]

theorem readText_quote (text : String) (rest : List Char) :
    readText (text.toList.flatMap escaped ++ '"' :: rest) = some (text,rest) := by
  rw [readText,units_text]
  simp [characters_toNat]

end Texts

section Values

theorem toList_list (items : List Json) :
    (Json.list items).render.toList = '[' :: ((renderItems items).toList ++ [']']) := by
  simp [render]

theorem toList_object (fields : List (String × Json)) :
    (Json.object fields).render.toList = '{' :: ((renderFields fields).toList ++ ['}']) := by
  simp [render]

theorem toList_items (item next : Json) (items : List Json) :
    (renderItems (item :: next :: items)).toList =
      item.render.toList ++ ',' :: (renderItems (next :: items)).toList := by
  simp [renderItems]

theorem toList_field (name : String) (value : Json) : (renderFields [(name,value)]).toList =
    '"' :: (name.toList.flatMap escaped ++ '"' :: ':' :: value.render.toList) := by
  simp [renderFields,toList_quote]

theorem toList_fields (name : String) (value : Json) (next : String × Json)
    (fields : List (String × Json)) : (renderFields ((name,value) :: next :: fields)).toList =
      '"' :: (name.toList.flatMap escaped ++ '"' :: ':' ::
        (value.render.toList ++ ',' :: (renderFields (next :: fields)).toList)) := by
  simp [renderFields,toList_quote]

@[simp] theorem skipBlank_nil : skipBlank [] = [] := rfl

theorem skipBlank_cons {c : Char} (plain : isBlank c = false) (rest : List Char) :
    skipBlank (c :: rest) = c :: rest := by
  simp [skipBlank,plain]

theorem number_ne {c mark : Char} (opens : c = '-' ∨ c.isDigit = true) (minus : mark ≠ '-')
    (digit : mark.isDigit = false) : c ≠ mark := by
  rintro rfl
  rcases opens with same | isDigit
  · exact minus same
  · rw [digit] at isDigit
    cases isDigit

theorem number_plain {c : Char} (opens : c = '-' ∨ c.isDigit = true) : isBlank c = false := by
  simp [isBlank,number_ne opens,Char.isDigit]

theorem readValue_number {cs rest : List Char} {number : Json}
    (found : readNumber cs = some (number,rest)) (fuel : Nat) :
    readValue (fuel+1) cs = some (number,rest) := by
  obtain ⟨c,more,rfl,opens⟩ := readNumber_opens found
  unfold readValue
  rw [skipBlank_cons (number_plain opens)]
  simp [number_ne opens,Char.isDigit,found]

theorem opens_render {json : Json} {levels : Nat} (writable : json.Writable Legible levels) :
    ∃ c more, json.render.toList = c :: more ∧ isBlank c = false ∧ c ≠ ']' := by
  have number {cs rest : List Char} {json : Json} (found : readNumber cs = some (json,rest)) :
      ∃ c more, cs = c :: more ∧ isBlank c = false ∧ c ≠ ']' := by
    obtain ⟨c,more,rfl,opens⟩ := readNumber_opens found
    exact ⟨c,more,rfl,number_plain opens,number_ne opens (by decide) (by decide)⟩
  cases json with
  | null => exact ⟨'n',_,rfl,rfl,by decide⟩
  | bool value => cases value <;> exact ⟨_,_,rfl,rfl,by decide⟩
  | int value => exact number (readNumber_int value)
  | real value => exact number writable
  | text value => exact ⟨'"',_,toList_quote value,rfl,by decide⟩
  | list items => exact ⟨'[',_,toList_list items,rfl,by decide⟩
  | object fields => exact ⟨'{',_,toList_object fields,rfl,by decide⟩

theorem opens_items {item : Json} (items : List Json) {levels : Nat}
    (writable : item.Writable Legible levels) : ∃ c more,
    (renderItems (item :: items)).toList = c :: more ∧ isBlank c = false ∧ c ≠ ']' := by
  obtain ⟨c,more,opens,plain,unclosed⟩ := opens_render writable
  cases items with
  | nil => exact ⟨c,more,opens,plain,unclosed⟩
  | cons next items => exact ⟨c,_,by rw [toList_items,opens]; rfl,plain,unclosed⟩

theorem opens_fields (field : String × Json) (fields : List (String × Json)) :
    ∃ more, (renderFields (field :: fields)).toList = '"' :: more := by
  cases fields with
  | nil => exact ⟨_,toList_field ..⟩
  | cons next fields => exact ⟨_,toList_fields ..⟩

-- What the readers find with so much fuel. The reader of a list or an object starts behind its
-- opening mark and goes on from what it has found before.
def ReadsValues (fuel : Nat) : Prop := ∀ json rest levels, json.Writable Legible levels →
  Ends rest → 2*json.render.toList.length + 1 ≤ fuel →
    readValue fuel (json.render.toList ++ rest) = some (json,rest)

def ReadsItems (fuel : Nat) : Prop := ∀ item items found rest levels,
  WritableItems Legible (item :: items) levels →
    2*(renderItems (item :: items)).toList.length + 2 ≤ fuel →
    readItems fuel ((renderItems (item :: items)).toList ++ ']' :: rest) found =
      some (found.reverse ++ item :: items,rest)

def ReadsFields (fuel : Nat) : Prop := ∀ field fields found rest levels,
  WritableFields Legible (field :: fields) levels → ((found ++ field :: fields).map (·.1)).Nodup →
    2*(renderFields (field :: fields)).toList.length + 2 ≤ fuel →
      readFields fuel ((renderFields (field :: fields)).toList ++ '}' :: rest) found =
        some (found ++ field :: fields,rest)

theorem readsValues_number {number : Json} {text : String} {rest : List Char}
    (reads : readNumber text.toList = some (number,[])) (ends : Ends rest) (fuel : Nat) :
    readValue (fuel+1) (text.toList ++ rest) = some (number,rest) := by
  refine readValue_number ?_ fuel
  rw [readNumber_append ends,reads]
  rfl

theorem readsValues_succ {fuel : Nat} (many : ReadsItems fuel) (named : ReadsFields fuel) :
    ReadsValues (fuel+1) := by
  intro json rest levels writable ends fits
  cases json with
  | null => simp [render,readValue,skipBlank,isBlank]
  | bool value => cases value <;> simp [render,readValue,skipBlank,isBlank]
  | int value => exact readsValues_number (readNumber_int value) ends fuel
  | real value => exact readsValues_number writable ends fuel
  | text value => simp [render,toList_quote,readValue,skipBlank,isBlank,readText_quote]
  | list items =>
    cases items with
    | nil => simp [render,renderItems,readValue,skipBlank,isBlank]
    | cons item items =>
      rw [toList_list] at fits ⊢
      simp only [List.length_cons,List.length_append,List.length_nil] at fits
      have reads := many item items [] rest _ writable.2 (by omega)
      obtain ⟨c,more,opens,plain,unclosed⟩ := opens_items items writable.2.1
      rw [opens] at reads ⊢
      simp only [List.cons_append] at reads
      have bracket : isBlank '[' = false := rfl
      simp [readValue,skipBlank_cons,bracket,plain,unclosed,reads]
  | object fields =>
    cases fields with
    | nil => simp [render,renderFields,readValue,skipBlank,isBlank]
    | cons field fields =>
      rw [toList_object] at fits ⊢
      simp only [List.length_cons,List.length_append,List.length_nil] at fits
      have reads := named field fields [] rest _ writable.2.2 writable.2.1 (by omega)
      obtain ⟨more,opens⟩ := opens_fields field fields
      rw [opens] at reads ⊢
      simp only [List.cons_append] at reads
      simp [readValue,skipBlank_cons,reads,isBlank]

theorem readsItems_succ {fuel : Nat} (single : ReadsValues fuel) (many : ReadsItems fuel) :
    ReadsItems (fuel+1) := by
  intro item items found rest levels writable fits
  obtain ⟨first,others⟩ := writable
  cases items with
  | nil =>
    simp only [renderItems] at fits ⊢
    have reads := single item (']' :: rest) levels first (ends_cons (by simp)) (by omega)
    simp [readItems,reads,skipBlank,isBlank]
  | cons next items =>
    rw [toList_items] at fits ⊢
    simp only [List.length_append,List.length_cons] at fits
    have reads := single item (',' :: ((renderItems (next :: items)).toList ++ ']' :: rest)) levels
      first (ends_cons (by simp)) (by omega)
    have later := many next items (item :: found) rest levels others (by omega)
    simp [readItems,reads,later,skipBlank,isBlank]

theorem putField_fresh {name : String} {value : Json} {found : List (String × Json)}
    (fresh : name ∉ found.map (·.1)) : putField name value found = found ++ [(name,value)] := by
  induction found with
  | nil => rfl
  | cons field found ih =>
    obtain ⟨apart,later⟩ := not_or.mp (List.mem_cons.not.mp fresh)
    rw [putField,if_neg (Ne.symm apart),ih later]
    rfl

theorem readsFields_succ {fuel : Nat} (single : ReadsValues fuel) (named : ReadsFields fuel) :
    ReadsFields (fuel+1) := by
  intro field fields found rest levels writable distinct fits
  obtain ⟨name,value⟩ := field
  obtain ⟨first,others⟩ := writable
  have fresh : name ∉ found.map (·.1) := by
    rw [List.map_append,List.nodup_append] at distinct
    intro member
    exact distinct.2.2 name member name List.mem_cons_self rfl
  cases fields with
  | nil =>
    rw [toList_field] at fits ⊢
    simp only [List.length_append,List.length_cons] at fits
    have reads := single value ('}' :: rest) levels first (ends_cons (by simp)) (by omega)
    simp [readFields,reads,readText_quote,skipBlank,isBlank,putField_fresh fresh]
  | cons next fields =>
    rw [toList_fields] at fits ⊢
    simp only [List.length_append,List.length_cons] at fits
    have reads := single value (',' :: ((renderFields (next :: fields)).toList ++ '}' :: rest))
      levels first (ends_cons (by simp)) (by omega)
    have later := named next fields (found ++ [(name,value)]) rest levels others
      (by simpa using distinct) (by omega)
    simp [readFields,reads,readText_quote,later,skipBlank,isBlank,putField_fresh fresh]

theorem reads_render (fuel : Nat) : ReadsValues fuel ∧ ReadsItems fuel ∧ ReadsFields fuel := by
  induction fuel with
  | zero =>
    refine ⟨?_,?_,?_⟩
    · intro json rest _ _ _ fits
      omega
    · intro item items found rest _ _ fits
      omega
    · intro field fields found rest _ _ _ fits
      omega
  | succ fuel ih =>
    obtain ⟨single,many,named⟩ := ih
    exact ⟨readsValues_succ many named,readsItems_succ single many,readsFields_succ single named⟩

theorem read_render {json : Json} {levels : Nat} (writable : json.Writable Legible levels) :
    read? json.render = some json := by
  have single := (reads_render (2*json.render.toList.length + 2)).1
  have reads := single json [] levels writable ends_nil (by omega)
  rw [List.append_nil] at reads
  simp [read?,reads]

end Values

theorem plain_sound : JsonText.plain.Sound Legible := fun _ writable => read_render writable

end JoinTrace.Json
