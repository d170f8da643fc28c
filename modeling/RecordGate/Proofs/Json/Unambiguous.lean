import RecordGate.Proofs.Json.Printing

/-! # Texts of values are unambiguous

The text of a value ends where the value ends, whatever follows it, and no other value has that text
(`Value.text_append_inj`). This needs no order of members: a text lists them as they are held. Doubles are
left out, since some of them are written alike. -/

namespace RecordGate.Json

/-! ### Strings and integers -/

theorem stringText_append_inj {s t : String} {r r' : List UInt8}
    (h : Text.bytes (stringText s) ++ r = Text.bytes (stringText t) ++ r') : s = t ∧ r = r' := by
  obtain ⟨text, htext, hspells⟩ := spells_stringText s r
  obtain ⟨text', htext', hspells'⟩ := spells_stringText t r'
  rw [htext, htext'] at h
  obtain rfl : text = text' := (List.cons.inj h).2
  have hcontents := hspells.unescape.symm.trans hspells'.unescape
  simp only [Except.ok.injEq, Prod.mk.injEq] at hcontents
  exact ⟨Text.bytes_injective hcontents.1, hcontents.2⟩

theorem toString_append_inj {i j : Int} (hi : IntegerInRange i) (hj : IntegerInRange j) {r r' : List UInt8}
    (hr : Ends r) (hr' : Ends r') (h : Text.bytes (toString i) ++ r = Text.bytes (toString j) ++ r') :
    i = j ∧ r = r' := by
  obtain ⟨literal, hnumeral, hvalue⟩ := numeral_toString hi r
  obtain ⟨literal', hnumeral', hvalue'⟩ := numeral_toString hj r'
  have hread := hnumeral.readNumber hr hvalue
  rw [h, hnumeral'.readNumber hr' hvalue'] at hread
  simp only [Except.ok.injEq, Prod.mk.injEq, Number.int.injEq] at hread
  exact ⟨hread.1.symm, hread.2.symm⟩

/-! ### Kinds of values -/

/-- What the first byte of a text tells of a value. -/
inductive Kind where
  | null
  | true
  | false
  | number
  | string
  | array
  | object
  | other
  deriving DecidableEq

def Kind.ofByte (b : UInt8) : Kind :=
  if b = 0x6E then .null
  else if b = 0x74 then .true
  else if b = 0x66 then .false
  else if b = Mark.minus ∨ isDigit b then .number
  else if b = Mark.quote then .string
  else if b = Mark.openArray then .array
  else if b = Mark.openObject then .object
  else .other

namespace Value

def kind : Value → Kind
  | .null => .null
  | .bool true => .true
  | .bool false => .false
  | .int _ | .double _ => .number
  | .string _ => .string
  | .array _ => .array
  | .object _ => .object

/-- Two values of one kind. -/
inductive Alike : Value → Value → Prop where
  | null : Alike .null .null
  | bool (flag : Bool) : Alike (.bool flag) (.bool flag)
  | int (i j : Int) : Alike (.int i) (.int j)
  | string (s t : String) : Alike (.string s) (.string t)
  | array (items others : List Value) : Alike (.array items) (.array others)
  | object (members others : List (String × Value)) : Alike (.object members) (.object others)

theorem alike_of_kind {v w : Value} (hv : v.Integral) (hw : w.Integral) (h : v.kind = w.kind) : Alike v w := by
  rcases v with _ | (_ | _) | _ | _ | _ | _ | _ <;> rcases w with _ | (_ | _) | _ | _ | _ | _ | _ <;>
    first
    | constructor
    | exact hv.elim
    | exact hw.elim
    | cases h

theorem kind_of_head {v : Value} (hv : v.Integral) {b : UInt8} {r more : List UInt8}
    (h : Text.bytes v.text ++ r = b :: more) : Kind.ofByte b = v.kind := by
  match v with
  | .null | .bool true | .bool false | .array [] | .object [] =>
    obtain ⟨rfl, -⟩ := List.cons.inj h
    rfl
  | .double _ => exact hv.elim
  | .int i =>
    obtain ⟨literal, hnumeral, -⟩ := numeral_toString hv r
    obtain ⟨c, rest, hhead, hc⟩ := hnumeral.head
    obtain ⟨rfl, -⟩ := List.cons.inj (hhead.symm.trans h)
    simp only [Kind.ofByte, if_pos hc, if_neg (ne_of_numeral hc 0x6E (by decide) rfl),
      if_neg (ne_of_numeral hc 0x74 (by decide) rfl), if_neg (ne_of_numeral hc 0x66 (by decide) rfl)]
    rfl
  | .string s =>
    obtain ⟨text, htext, -⟩ := spells_stringText s r
    obtain ⟨rfl, -⟩ := List.cons.inj (htext.symm.trans h)
    rfl
  | .array (item :: items) =>
    rw [bytes_array] at h
    obtain ⟨rfl, -⟩ := List.cons.inj h
    rfl
  | .object ((key, value) :: members) =>
    rw [bytes_object] at h
    obtain ⟨rfl, -⟩ := List.cons.inj h
    rfl

theorem alike_of_text {v w : Value} (hv : v.Integral) (hw : w.Integral) {r r' : List UInt8}
    (h : Text.bytes v.text ++ r = Text.bytes w.text ++ r') : Alike v w := by
  cases hhead : Text.bytes v.text ++ r with
  | nil =>
    have hempty : Text.bytes v.text = Text.bytes "" := (List.append_eq_nil_iff.mp hhead).1
    exact absurd (Text.bytes_injective hempty) (text_ne_empty v)
  | cons b more =>
    exact alike_of_kind hv hw ((kind_of_head hv hhead).symm.trans (kind_of_head hw (h.symm.trans hhead)))

/-! ### All values -/

theorem ends_items (items : List Value) (r : List UInt8) :
    Ends (Text.bytes (textOfItems items) ++ Mark.closeArray :: r) := by
  cases items with
  | nil => exact ends_cons (by decide)
  | cons item items =>
    rw [bytes_items]
    exact ends_cons (by decide)

theorem ends_members (members : List (String × Value)) (r : List UInt8) :
    Ends (Text.bytes (textOfMembers members) ++ Mark.closeObject :: r) := by
  cases members with
  | nil => exact ends_cons (by decide)
  | cons member members =>
    rw [bytes_members]
    exact ends_cons (by decide)

/-- The end of an array is no start of an item. -/
theorem close_ne_item {item : Value} (hitem : item.Integral) (r r' : List UInt8) :
    Mark.closeArray :: r' ≠ Text.bytes item.text ++ r := by
  intro h
  have hkind := kind_of_head hitem h.symm
  rcases item with _ | (_ | _) | _ | _ | _ | _ | _ <;> cases hkind

mutual
/-- The text of a value tells the value, and where it ends. -/
theorem text_append_inj {v w : Value} (hv : v.Integral) (hw : w.Integral) {r r' : List UInt8} (hr : Ends r)
    (hr' : Ends r') (h : Text.bytes v.text ++ r = Text.bytes w.text ++ r') : v = w ∧ r = r' := by
  match v, w, alike_of_text hv hw h with
  | _, _, .null | _, _, .bool _ => exact ⟨rfl, List.append_cancel_left h⟩
  | _, _, .int i j =>
    obtain ⟨rfl, hrest⟩ := toString_append_inj hv hw hr hr' h
    exact ⟨rfl, hrest⟩
  | _, _, .string s t =>
    obtain ⟨rfl, hrest⟩ := stringText_append_inj h
    exact ⟨rfl, hrest⟩
  | .array [], .array [], _ | .object [], .object [], _ => exact ⟨rfl, List.append_cancel_left h⟩
  | .array (item :: items), .array (other :: others), _ =>
    simp only [bytes_array, List.cons_append, List.append_assoc, List.cons.injEq, true_and] at h
    obtain ⟨rfl, htail⟩ := text_append_inj hv.1 hw.1 (ends_items items r) (ends_items others r') h
    obtain ⟨rfl, hrest⟩ := items_append_inj hv.2 hw.2 htail
    exact ⟨rfl, hrest⟩
  | .array [], .array (other :: others), _ =>
    simp only [bytes_array, List.cons_append, List.append_assoc] at h
    exact absurd (List.cons.inj h).2 (close_ne_item hw.1 _ _)
  | .array (item :: items), .array [], _ =>
    simp only [bytes_array, List.cons_append, List.append_assoc] at h
    exact absurd (List.cons.inj h).2.symm (close_ne_item hv.1 _ _)
  | .object ((key, value) :: members), .object ((other, held) :: others), _ =>
    simp only [bytes_object, List.cons_append, List.append_assoc, List.cons.injEq, true_and] at h
    obtain ⟨rfl, hvalue⟩ := stringText_append_inj h
    obtain ⟨rfl, htail⟩ := text_append_inj hv.1 hw.1 (ends_members members r) (ends_members others r')
      (List.cons.inj hvalue).2
    obtain ⟨rfl, hrest⟩ := members_append_inj hv.2 hw.2 htail
    exact ⟨rfl, hrest⟩
  | .object [], .object ((other, held) :: others), _ =>
    simp only [bytes_object, List.cons_append, bytes_stringText] at h
    exact absurd (List.cons.inj (List.cons.inj h).2).1 (by decide)
  | .object ((key, value) :: members), .object [], _ =>
    simp only [bytes_object, List.cons_append, bytes_stringText] at h
    exact absurd (List.cons.inj (List.cons.inj h).2).1 (by decide)

theorem items_append_inj {items others : List Value} (hitems : IntegralItems items)
    (hothers : IntegralItems others) {r r' : List UInt8}
    (h : Text.bytes (textOfItems items) ++ Mark.closeArray :: r =
      Text.bytes (textOfItems others) ++ Mark.closeArray :: r') : items = others ∧ r = r' := by
  match items, others with
  | [], [] => exact ⟨rfl, (List.cons.inj h).2⟩
  | [], other :: others =>
    rw [bytes_items] at h
    exact absurd (List.cons.inj h).1 (by decide)
  | item :: items, [] =>
    rw [bytes_items] at h
    exact absurd (List.cons.inj h).1 (by decide)
  | item :: items, other :: others =>
    simp only [bytes_items, List.cons_append, List.append_assoc, List.cons.injEq, true_and] at h
    obtain ⟨rfl, htail⟩ := text_append_inj hitems.1 hothers.1 (ends_items items r) (ends_items others r') h
    obtain ⟨rfl, hrest⟩ := items_append_inj hitems.2 hothers.2 htail
    exact ⟨rfl, hrest⟩

theorem members_append_inj {members others : List (String × Value)} (hmembers : IntegralMembers members)
    (hothers : IntegralMembers others) {r r' : List UInt8}
    (h : Text.bytes (textOfMembers members) ++ Mark.closeObject :: r =
      Text.bytes (textOfMembers others) ++ Mark.closeObject :: r') : members = others ∧ r = r' := by
  match members, others with
  | [], [] => exact ⟨rfl, (List.cons.inj h).2⟩
  | [], (other, held) :: others =>
    rw [bytes_members] at h
    exact absurd (List.cons.inj h).1 (by decide)
  | (key, value) :: members, [] =>
    rw [bytes_members] at h
    exact absurd (List.cons.inj h).1 (by decide)
  | (key, value) :: members, (other, held) :: others =>
    simp only [bytes_members, List.cons_append, List.append_assoc, List.cons.injEq, true_and] at h
    obtain ⟨rfl, hvalue⟩ := stringText_append_inj h
    obtain ⟨rfl, htail⟩ := text_append_inj hmembers.1 hothers.1 (ends_members members r) (ends_members others r')
      (List.cons.inj hvalue).2
    obtain ⟨rfl, hrest⟩ := members_append_inj hmembers.2 hothers.2 htail
    exact ⟨rfl, hrest⟩
end

/-- Values with the same text are the same, in whatever order they hold their members. -/
theorem eq_of_text {v w : Value} (hv : v.Integral) (hw : w.Integral) (h : v.text = w.text) : v = w :=
  (text_append_inj hv hw ends_nil ends_nil (congrArg (Text.bytes · ++ []) h)).1

end RecordGate.Json.Value
