import RecordGate.Proofs.Json.Decimal
import RecordGate.Proofs.Json.Reading

/-! # The texts of values

The text of a value writes the value, with the members of its objects collected (`Value.text_writes`). So the
text of an ordered value is read back as the value (`parse_text`). Doubles are left out: they may be written as
texts of other numbers or of null.
In a string every character is either escaped, and its escape stands for it, or its bytes stand for
themselves. -/

namespace RecordGate.Json

/-! ### Strings -/

theorem spells_append {bs : List UInt8} (hbs : ∀ b ∈ bs, IsPlain b) {text content rest : List UInt8}
    (h : Spells text content rest) : Spells (bs ++ text) (bs ++ content) rest := by
  induction bs with
  | nil => exact h
  | cons b bs ih => exact .plain (hbs b List.mem_cons_self) (ih fun b hb => hbs b (List.mem_cons_of_mem _ hb))

theorem isPlain_of_mem {c : Char} (hquote : c ≠ '"') (hbackslash : c ≠ '\\') (hcontrol : ¬c.toNat < 0x20)
    {b : UInt8} (hb : b ∈ String.utf8EncodeChar c) : IsPlain b := by
  by_cases hascii : c.toNat < 0x80
  · rw [Text.utf8EncodeChar_ascii hascii, List.mem_singleton] at hb
    subst hb
    have hvalue : (UInt8.ofNat c.toNat).toNat = c.toNat := by
      rw [UInt8.toNat_ofNat']
      omega
    have hne : ∀ mark : Char, mark.toNat < 0x80 → c ≠ mark → UInt8.ofNat c.toNat ≠ UInt8.ofNat mark.toNat := by
      intro mark hmark hdiffers heq
      have hnumbers := congrArg UInt8.toNat heq
      rw [hvalue, UInt8.toNat_ofNat'] at hnumbers
      exact hdiffers (Char.toNat_inj.mp (by omega))
    exact ⟨hne '"' (by decide) hquote, hne '\\' (by decide) hbackslash, by omega⟩
  · have hhigh := Text.le_of_mem_utf8EncodeChar (Nat.not_lt.mp hascii) hb
    refine ⟨?_, ?_, by omega⟩
    · rintro rfl
      exact absurd hhigh (by decide)
    · rintro rfl
      exact absurd hhigh (by decide)

theorem hexValue?_hexDigit : ∀ n < 16, String.utf8EncodeChar (hexDigit n) = [UInt8.ofNat (hexDigit n).toNat] ∧
    hexValue? (UInt8.ofNat (hexDigit n).toNat) = some n := by
  decide

theorem escape_control {c : Char} (h : c.toNat < 0x20) (rest : List UInt8) :
    Escape (['u', '0', '0', hexDigit (c.toNat / 16), hexDigit (c.toNat % 16)].flatMap String.utf8EncodeChar ++
      rest) c rest := by
  obtain ⟨hfirst, hhigh⟩ := hexValue?_hexDigit (c.toNat / 16) (by omega)
  obtain ⟨hsecond, hlow⟩ := hexValue?_hexDigit (c.toNat % 16) (by omega)
  have hzero : hexValue? 0x30 = some 0 := rfl
  have hnumber : ((0 * 16 + 0) * 16 + c.toNat / 16) * 16 + c.toNat % 16 = c.toNat := by omega
  have hdigits : FourDigits _ _ rest := .mk hzero hzero hhigh hlow
  rw [hnumber] at hdigits
  have hescape := Escape.number hdigits (.inl (by omega))
  rw [Char.ofNat_toNat] at hescape
  simp only [List.flatMap_cons, List.flatMap_nil, hfirst, hsecond]
  exact hescape

/-- A character is spelled by how it is written inside a string. -/
theorem spells_escaped (c : Char) {text content rest : List UInt8} (h : Spells text content rest) :
    Spells ((escaped c).flatMap String.utf8EncodeChar ++ text) (String.utf8EncodeChar c ++ content) rest := by
  unfold escaped
  by_cases hquote : c = '"'
  · subst hquote
    exact .escape (.letter rfl) h
  by_cases hbackslash : c = '\\'
  · subst hbackslash
    exact .escape (.letter rfl) h
  by_cases hbackspace : c = '\x08'
  · subst hbackspace
    exact .escape (.letter rfl) h
  by_cases hformFeed : c = '\x0c'
  · subst hformFeed
    exact .escape (.letter rfl) h
  by_cases hlineFeed : c = '\n'
  · subst hlineFeed
    exact .escape (.letter rfl) h
  by_cases hreturn : c = '\r'
  · subst hreturn
    exact .escape (.letter rfl) h
  by_cases htab : c = '\t'
  · subst htab
    exact .escape (.letter rfl) h
  rw [if_neg hquote, if_neg hbackslash, if_neg hbackspace, if_neg hformFeed, if_neg hlineFeed, if_neg hreturn,
    if_neg htab]
  by_cases hcontrol : c.toNat < 0x20
  · rw [if_pos hcontrol]
    exact .escape (escape_control hcontrol text) h
  · rw [if_neg hcontrol, List.flatMap_singleton]
    exact spells_append (fun b hb => isPlain_of_mem hquote hbackslash hcontrol hb) h

theorem bytes_stringText (text : String) : Text.bytes (stringText text) =
    Mark.quote :: ((text.toList.flatMap escaped).flatMap String.utf8EncodeChar ++ [Mark.quote]) := by
  have hquote : Text.bytes "\"" = [Mark.quote] := rfl
  unfold stringText
  rw [Text.bytes_append, Text.bytes_append, hquote, Text.bytes_ofList]
  rfl

theorem spells_characters (cs : List Char) (rest : List UInt8) :
    Spells ((cs.flatMap escaped).flatMap String.utf8EncodeChar ++ Mark.quote :: rest)
      (cs.flatMap String.utf8EncodeChar) rest := by
  induction cs with
  | nil => exact .close
  | cons c cs ih =>
    rw [List.flatMap_cons, List.flatMap_append, List.append_assoc]
    exact spells_escaped c ih

theorem spells_stringText (s : String) (rest : List UInt8) :
    ∃ text, Text.bytes (stringText s) ++ rest = Mark.quote :: text ∧ Spells text (Text.bytes s) rest := by
  refine ⟨_, ?_, Text.bytes_eq_flatMap s ▸ spells_characters s.toList rest⟩
  rw [bytes_stringText, List.cons_append, List.append_assoc]
  rfl

theorem keyed_stringText (key : String) (start : List UInt8) :
    Keyed (Text.bytes (stringText key) ++ Mark.colon :: start) key start := by
  obtain ⟨text, heq, hspells⟩ := spells_stringText key (Mark.colon :: start)
  rw [heq]
  exact .mk .none hspells .none .none

/-! ### Numbers -/

theorem toString_ne_empty (i : Int) : toString i ≠ "" := by
  intro hempty
  have hbytes := congrArg Text.bytes hempty
  rw [Int.toString_eq_repr, Int.repr_eq_if] at hbytes
  split at hbytes
  · rw [bytes_repr] at hbytes
    exact decimal_ne_nil _ hbytes
  · rw [Text.bytes_append] at hbytes
    cases hbytes

theorem pointed_ne_empty (digits : String) (whole : Int) : Double.pointed digits whole ≠ "" := by
  unfold Double.pointed
  dsimp only
  split
  · simp
  · split <;> simp

theorem magnitudeText_ne_empty (x : Double) : x.magnitudeText doubleLayout ≠ "" := by
  unfold Double.magnitudeText
  split
  · decide
  · split
    · simp
    · dsimp only
      split
      · exact pointed_ne_empty _ _
      · simp [Double.withExponent]

theorem doubleText_ne_empty (x : Double) : doubleText x ≠ "" := by
  unfold doubleText
  split
  · unfold Double.text
    split
    · decide
    · split
      · simp
      · exact magnitudeText_ne_empty x
  · decide

/-! ### Values -/

namespace Value

mutual
/-- The value with the members of every object in it collected. -/
def collected : Value → Value
  | .array items => .array (collectedItems items)
  | .object members => .object (collect [] (collectedMembers members))
  | value => value

/-- The items with their members collected. -/
def collectedItems : List Value → List Value
  | [] => []
  | item :: rest => item.collected :: collectedItems rest

/-- The members with the members of their values collected. -/
def collectedMembers : List (String × Value) → List (String × Value)
  | [] => []
  | (key, value) :: rest => (key, value.collected) :: collectedMembers rest
end

theorem keys_collectedMembers (members : List (String × Value)) :
    (collectedMembers members).map Prod.fst = members.map Prod.fst := by
  induction members with
  | nil => rfl
  | cons member members ih => exact congrArg (member.1 :: ·) ih

mutual
/-- There is nothing to collect in an ordered value. -/
theorem Ordered.collected_eq {value : Value} (h : value.Ordered) : value.collected = value := by
  match value with
  | .null | .bool _ | .int _ | .double _ | .string _ => rfl
  | .array items => exact congrArg Value.array (OrderedItems.collected_eq h)
  | .object members =>
    have hmembers := OrderedMembers.collected_eq h.2
    show Value.object (collect [] (collectedMembers members)) = _
    rw [hmembers, (collected_self h.1).collect_eq]

theorem OrderedItems.collected_eq {items : List Value} (h : OrderedItems items) :
    collectedItems items = items := by
  match items with
  | [] => rfl
  | item :: rest =>
    show item.collected :: collectedItems rest = _
    rw [h.1.collected_eq, OrderedItems.collected_eq h.2]

theorem OrderedMembers.collected_eq {members : List (String × Value)} (h : OrderedMembers members) :
    collectedMembers members = members := by
  match members with
  | [] => rfl
  | (key, value) :: rest =>
    show (key, value.collected) :: collectedMembers rest = _
    rw [h.1.collected_eq, OrderedMembers.collected_eq h.2]
end

theorem bytes_items (item : Value) (items : List Value) :
    Text.bytes (textOfItems (item :: items)) =
      Mark.comma :: (Text.bytes item.text ++ Text.bytes (textOfItems items)) := by
  show Text.bytes ("," ++ item.text ++ textOfItems items) = _
  rw [Text.bytes_append, Text.bytes_append]
  rfl

theorem bytes_members (key : String) (value : Value) (members : List (String × Value)) :
    Text.bytes (textOfMembers ((key, value) :: members)) = Mark.comma :: (Text.bytes (stringText key) ++
      Mark.colon :: (Text.bytes value.text ++ Text.bytes (textOfMembers members))) := by
  show Text.bytes ("," ++ stringText key ++ ":" ++ value.text ++ textOfMembers members) = _
  simp only [Text.bytes_append, List.append_assoc]
  rfl

theorem bytes_array (item : Value) (items : List Value) :
    Text.bytes (Value.array (item :: items)).text =
      Mark.openArray :: (Text.bytes item.text ++ (Text.bytes (textOfItems items) ++ [Mark.closeArray])) := by
  show Text.bytes ("[" ++ item.text ++ textOfItems items ++ "]") = _
  simp only [Text.bytes_append, List.append_assoc]
  rfl

theorem bytes_object (key : String) (value : Value) (members : List (String × Value)) :
    Text.bytes (Value.object ((key, value) :: members)).text = Mark.openObject :: (Text.bytes (stringText key) ++
      Mark.colon :: (Text.bytes value.text ++ (Text.bytes (textOfMembers members) ++ [Mark.closeObject]))) := by
  show Text.bytes ("\x7b" ++ stringText key ++ ":" ++ value.text ++ textOfMembers members ++ "\x7d") = _
  simp only [Text.bytes_append, List.append_assoc]
  rfl

theorem exists_inner {nesting depth : Nat} (h : nesting + 1 ≤ depth) :
    ∃ inner, depth = inner + 1 ∧ nesting ≤ inner :=
  ⟨depth - 1, by omega, by omega⟩

mutual
/-- The text of a value writes the value, with the members collected. -/
theorem text_writes {value : Value} (hintegral : value.Integral) {depth : Nat} (hdepth : value.nesting ≤ depth)
    (rest : List UInt8) : Writes depth (Text.bytes value.text ++ rest) (.value value.collected) rest := by
  match value with
  | .null => exact .scalar .null
  | .bool true => exact .scalar .true
  | .bool false => exact .scalar .false
  | .int i =>
    obtain ⟨literal, hnumeral, hvalue⟩ := numeral_toString hintegral rest
    exact .scalar (.number hnumeral hvalue)
  | .double x => exact False.elim hintegral
  | .string s =>
    obtain ⟨text, heq, hspells⟩ := spells_stringText s rest
    rw [show (Value.string s).text = stringText s from rfl, heq]
    exact .scalar (.string hspells)
  | .array [] =>
    obtain ⟨inner, rfl, -⟩ := exists_inner hdepth
    exact .emptyArray .none
  | .array (item :: items) =>
    obtain ⟨inner, rfl, hinner⟩ := exists_inner hdepth
    obtain ⟨hitem, hitems⟩ := Nat.max_le.mp hinner
    rw [bytes_array, List.cons_append, List.append_assoc, List.append_assoc]
    exact .array (items_write hintegral.2 hitems (text_writes hintegral.1 hitem) rest)
  | .object members =>
    obtain ⟨inner, rfl, hinner⟩ := exists_inner hdepth
    obtain ⟨text, heq, hencloses⟩ := object_encloses hintegral hinner rest
    rw [heq]
    exact hencloses.writes (collected_collect _)

/-- The text of an object encloses its members as they are held. -/
theorem object_encloses {members : List (String × Value)} (hintegral : IntegralMembers members) {depth : Nat}
    (hdepth : nestingOfMembers members ≤ depth) (rest : List UInt8) :
    ∃ text, Text.bytes (Value.object members).text ++ rest = Mark.openObject :: text ∧
      Encloses depth text (collectedMembers members) rest := by
  match members with
  | [] => exact ⟨_, rfl, .none .none⟩
  | (key, value) :: members =>
    obtain ⟨hvalue, hmembers⟩ := Nat.max_le.mp hdepth
    rw [bytes_object, List.cons_append, List.append_assoc, List.cons_append, List.append_assoc,
      List.append_assoc]
    exact ⟨_, rfl, .some (members_write hintegral.2 hmembers (text_writes hintegral.1 hvalue) key rest)⟩

theorem items_write {items : List Value} (hintegral : IntegralItems items) {depth : Nat}
    (hdepth : nestingOfItems items ≤ depth) {text : List UInt8} {first : Value}
    (hfirst : ∀ rest, Writes depth (text ++ rest) (.value first) rest) (rest : List UInt8) :
    Writes depth (text ++ (Text.bytes (textOfItems items) ++ Mark.closeArray :: rest))
      (.items (first :: collectedItems items)) rest := by
  match items with
  | [] => exact .lastItem .none (hfirst _) .none
  | item :: items =>
    obtain ⟨hitem, hitems⟩ := Nat.max_le.mp hdepth
    rw [bytes_items, List.cons_append, List.append_assoc]
    exact .item .none (hfirst _) .none (items_write hintegral.2 hitems (text_writes hintegral.1 hitem) rest)

theorem members_write {members : List (String × Value)} (hintegral : IntegralMembers members) {depth : Nat}
    (hdepth : nestingOfMembers members ≤ depth) {text : List UInt8} {first : Value}
    (hfirst : ∀ rest, Writes depth (text ++ rest) (.value first) rest) (key : String) (rest : List UInt8) :
    Writes depth (Text.bytes (stringText key) ++
        Mark.colon :: (text ++ (Text.bytes (textOfMembers members) ++ Mark.closeObject :: rest)))
      (.members ((key, first) :: collectedMembers members)) rest := by
  match members with
  | [] => exact .lastMember (keyed_stringText key _) (hfirst _) .none
  | (other, value) :: members =>
    obtain ⟨hvalue, hmembers⟩ := Nat.max_le.mp hdepth
    rw [bytes_members, List.cons_append, List.append_assoc, List.cons_append, List.append_assoc]
    exact .member (keyed_stringText key _) (hfirst _) .none
      (members_write hintegral.2 hmembers (text_writes hintegral.1 hvalue) other rest)
end

/-- The text of an ordered value denotes the value. -/
theorem text_denotes {value : Value} (hordered : value.Ordered) (hintegral : value.Integral) {depth : Nat}
    (hdepth : value.nesting ≤ depth) : Denotes depth (Text.bytes value.text) value := by
  have hwrites := text_writes hintegral hdepth []
  rw [List.append_nil, hordered.collected_eq] at hwrites
  exact ⟨_, [], .none, hwrites, .none⟩

/-! ### No value is written as nothing -/

theorem text_ne_empty (value : Value) : value.text ≠ "" := by
  match value with
  | .null | .bool true | .bool false | .array [] | .object [] => decide
  | .int i => exact toString_ne_empty i
  | .double x => exact doubleText_ne_empty x
  | .string s =>
    intro hempty
    have hbytes := bytes_stringText s
    rw [show stringText s = "" from hempty] at hbytes
    cases hbytes
  | .array (item :: items) =>
    intro hempty
    have hbytes := bytes_array item items
    rw [hempty] at hbytes
    cases hbytes
  | .object ((key, value) :: members) =>
    intro hempty
    have hbytes := bytes_object key value members
    rw [hempty] at hbytes
    cases hbytes

end Value

/-- The text of an ordered value is read back as the value. -/
theorem parse_text {value : Value} (hordered : value.Ordered) (hintegral : value.Integral)
    (hnesting : value.nesting ≤ nestingLimit) : parse (Text.bytes value.text) = .ok value :=
  parse_eq_ok_iff.mpr (value.text_denotes hordered hintegral hnesting)

/-- The text of null, a flag, an integer or a string is read back as what it is. -/
theorem parse_text_of_flat {value : Value} (hflat : value.isComposite = false) (hintegral : value.Integral) :
    parse (Text.bytes value.text) = .ok value := by
  obtain ⟨hordered, hnesting⟩ := settled_of_flat hflat
  exact parse_text hordered hintegral (hnesting ▸ Nat.zero_le _)

end RecordGate.Json
