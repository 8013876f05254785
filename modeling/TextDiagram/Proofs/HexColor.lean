import TextDiagram.Color
/-!
# Hexadecimal colours

A colour is written as a hash sign with three or six hexadecimal digits. What is read is more than that,
because every component is read as a numeral of two characters: one of them may be a sign or a space, and
decimal digits of all scripts count as digits. A component with a minus is no component of a colour that
can be shown.

Main statements:

* `component?_eq_some_iff`: the pairs of characters that are read as a component.
* `ofText?_eq_some_iff`: the texts that are read as a colour, and as which.
* `isHex_of_isRead`: among the texts with hexadecimal digits only, these are the proper ones.
-/

namespace TextDiagram

/-! ## Digits -/

namespace Text

/-- The hexadecimal digits stand in three ranges of the ASCII characters. -/
theorem toNat_of_hexDigit? {c : Char} {x : Nat} (h : hexDigit? c = some x) :
    48 ≤ c.toNat ∧ c.toNat ≤ 57 ∧ x = c.toNat - 48 ∨
      97 ≤ c.toNat ∧ c.toNat ≤ 102 ∧ x = c.toNat - 87 ∨
      65 ≤ c.toNat ∧ c.toNat ≤ 70 ∧ x = c.toNat - 55 := by
  unfold hexDigit? at h
  split at h
  · next hc => exact .inl ⟨hc.1, hc.2, (Option.some.inj h).symm⟩
  · split at h
    · next hc => exact .inr (.inl ⟨hc.1, hc.2, (Option.some.inj h).symm⟩)
    · split at h
      · next hc => exact .inr (.inr ⟨hc.1, hc.2, (Option.some.inj h).symm⟩)
      · cases h

/-- An ASCII decimal digit is read as its own value. -/
theorem hexDigit?_ofNat : ∀ d < 10, hexDigit? (Char.ofNat (48 + d)) = some d := by decide

/-- The digits of a script start at its zero. -/
theorem exists_zero_of_decimalDigit? {c : Char} {d : Nat} (h : decimalDigit? c = some d) :
    d < 10 ∧ ∃ z ∈ digitZeros, c.toNat = z + d := by
  obtain ⟨z, hfind, hd⟩ := Option.map_eq_some_iff.1 h
  have hz : z ∈ digitZeros := List.mem_of_find?_eq_some hfind
  have hrange := List.find?_some hfind
  simp only [Bool.and_eq_true, decide_eq_true_eq] at hrange
  refine ⟨by omega, z, hz, by omega⟩

/-- No script has its digits where blanks are. -/
theorem digitZeros_apart : ∀ z ∈ digitZeros, z = 48 ∨
    0x660 ≤ z ∧ (z + 10 ≤ 0x1680 ∨ 0x1680 < z) ∧ (z + 10 ≤ 0x2000 ∨ 0x3000 < z) := by
  decide

/-- No decimal digit of any script is a blank. -/
theorem not_isBlank_of_decimalDigit? {c : Char} {d : Nat} (h : decimalDigit? c = some d) :
    isBlank c = false := by
  obtain ⟨hd, z, hz, hc⟩ := exists_zero_of_decimalDigit? h
  have hapart := digitZeros_apart z hz
  rw [Bool.eq_false_iff]
  intro hblank
  simp only [isBlank, Bool.or_eq_true, Bool.and_eq_true, decide_eq_true_eq, beq_iff_eq] at hblank
  omega

end Text

namespace Numeral

open Text

/-- What the plain form makes of a character. -/
theorem plainChar_cases (c : Char) :
    c.toNat < 127 ∧ plainChar c = c ∨
      127 ≤ c.toNat ∧ isBlank c = true ∧ plainChar c = ' ' ∨
      127 ≤ c.toNat ∧ (∃ d, decimalDigit? c = some d ∧ plainChar c = Char.ofNat (48 + d)) ∨
      127 ≤ c.toNat ∧ isBlank c = false ∧ decimalDigit? c = none ∧ plainChar c = '?' := by
  by_cases hascii : c.toNat < 127
  · exact .inl ⟨hascii, if_pos hascii⟩
  have hforeign : 127 ≤ c.toNat := by omega
  rw [plainChar, if_neg hascii]
  cases hblank : isBlank c with
  | true => exact .inr (.inl ⟨hforeign, rfl, rfl⟩)
  | false =>
    cases hdigit : decimalDigit? c with
    | some d => exact .inr (.inr (.inl ⟨hforeign, d, rfl, rfl⟩))
    | none => exact .inr (.inr (.inr ⟨hforeign, rfl, rfl, rfl⟩))

end Numeral

namespace Color

open Text Numeral

/-- A digit of a component with its value: an ASCII hexadecimal digit or a decimal digit of another
script. -/
inductive IsDigit (c : Char) (x : Nat) : Prop where
  | ascii (h : hexDigit? c = some x)
  | foreign (hc : 127 ≤ c.toNat) (h : decimalDigit? c = some x)

/-- A blank that may stand in a numeral beside a digit. The information separators are none. -/
def IsSpacing (c : Char) : Prop := isBlank c = true ∧ ¬(28 ≤ c.toNat ∧ c.toNat ≤ 31)

variable {a b c : Char} {x y : Nat} {n : Int}

/-- No hexadecimal digit is a space. -/
theorem not_isSpace_of_hexDigit? (h : hexDigit? c = some x) : isSpace c = false := by
  have hc := toNat_of_hexDigit? h
  rw [Bool.eq_false_iff]
  intro hspace
  simp only [isSpace, Bool.or_eq_true, Bool.and_eq_true, decide_eq_true_eq, beq_iff_eq] at hspace
  rcases hspace with rfl | hspace
  · cases h
  · omega

/-- What is read as a digit after the replacement of foreign characters. -/
theorem hexDigit?_plainChar_eq_some_iff : hexDigit? (plainChar c) = some x ↔ IsDigit c x := by
  constructor
  · intro h
    -- A character stays, becomes a space, becomes an ASCII digit or becomes a question mark.
    rcases plainChar_cases c with ⟨-, hc⟩ | ⟨-, -, hc⟩ | ⟨hforeign, d, hd, hc⟩ | ⟨-, -, -, hc⟩
    · exact .ascii (hc ▸ h)
    · rw [hc] at h
      cases h
    · rw [hc, hexDigit?_ofNat d (exists_zero_of_decimalDigit? hd).1] at h
      exact .foreign hforeign (hd.trans h)
    · rw [hc] at h
      cases h
  · intro h
    cases h with
    | ascii h =>
      have hc := toNat_of_hexDigit? h
      rw [plainChar, if_pos (by omega)]
      exact h
    | foreign hc h =>
      rw [plainChar, if_neg (by omega), not_isBlank_of_decimalDigit? h, if_neg Bool.false_ne_true, h]
      exact hexDigit?_ofNat x (exists_zero_of_decimalDigit? h).1

/-- What is read as a space after the replacement of foreign characters. -/
theorem isSpace_plainChar_iff : isSpace (plainChar c) = true ↔ IsSpacing c := by
  rcases plainChar_cases c with ⟨hascii, hc⟩ | ⟨hforeign, hblank, hc⟩ | ⟨hforeign, d, hd, hc⟩ |
    ⟨-, hblank, -, hc⟩
  · rw [hc]
    simp only [isSpace, IsSpacing, isBlank, Bool.or_eq_true, Bool.and_eq_true, decide_eq_true_eq,
      beq_iff_eq]
    rw [Char.ext_iff, ← UInt32.toNat_inj]
    change c.toNat = 32 ∨ _ ↔ _
    omega
  · rw [hc]
    exact ⟨fun _ => ⟨hblank, by omega⟩, fun _ => rfl⟩
  · rw [hc, not_isSpace_of_hexDigit? (hexDigit?_ofNat d (exists_zero_of_decimalDigit? hd).1)]
    exact ⟨fun h => absurd h Bool.false_ne_true,
      fun h => absurd ((not_isBlank_of_decimalDigit? hd).symm.trans h.1) Bool.false_ne_true⟩
  · rw [hc]
    exact ⟨fun h => absurd h (by decide), fun h => absurd (hblank.symm.trans h.1) Bool.false_ne_true⟩

/-- Digits are less than sixteen. -/
theorem IsDigit.lt (h : IsDigit c x) : x < 16 := by
  have hc := toNat_of_hexDigit? (hexDigit?_plainChar_eq_some_iff.2 h)
  omega

/-- No character is read as a digit and as a space. -/
theorem IsDigit.not_isSpacing (h : IsDigit c x) : ¬IsSpacing c := by
  rw [← isSpace_plainChar_iff, not_isSpace_of_hexDigit? (hexDigit?_plainChar_eq_some_iff.2 h)]
  exact Bool.false_ne_true

/-- Only the signs themselves are read as signs. -/
theorem plainChar_eq_sign_iff {s : Char} (hs : s = '+' ∨ s = '-') : plainChar c = s ↔ c = s := by
  have hnone : hexDigit? s = none ∧ ' ' ≠ s ∧ '?' ≠ s := by
    rcases hs with rfl | rfl
    · decide
    · decide
  constructor
  · intro hc
    rcases plainChar_cases c with ⟨-, h⟩ | ⟨-, -, h⟩ | ⟨-, d, hd, h⟩ | ⟨-, -, -, h⟩
    · exact h.symm.trans hc
    · exact absurd (h.symm.trans hc) hnone.2.1
    · -- A digit of another script becomes an ASCII digit, never a sign.
      have hdigit := hexDigit?_ofNat d (exists_zero_of_decimalDigit? hd).1
      rw [← h, hc, hnone.1] at hdigit
      cases hdigit
    · exact absurd (h.symm.trans hc) hnone.2.2
  · rintro rfl
    rcases hs with rfl | rfl
    · rfl
    · rfl

/-! ## Components -/

/-- Two characters are read as the component: two digits, or one digit with a sign before it or a space
beside it. -/
inductive IsComponent : Char → Char → Int → Prop where
  | digits {a b : Char} {x y : Nat} (ha : IsDigit a x) (hb : IsDigit b y) :
      IsComponent a b (16 * x + y : Nat)
  | plus {b : Char} {y : Nat} (hb : IsDigit b y) : IsComponent '+' b y
  | minus {b : Char} {y : Nat} (hb : IsDigit b y) : IsComponent '-' b (-y)
  | spaceBefore {a b : Char} {y : Nat} (ha : IsSpacing a) (hb : IsDigit b y) : IsComponent a b y
  | spaceAfter {a b : Char} {x : Nat} (ha : IsDigit a x) (hb : IsSpacing b) : IsComponent a b x

/-- A minus is no digit. -/
theorem IsDigit.ne_minus (h : IsDigit c x) : c ≠ '-' := by
  rintro rfl
  cases hexDigit?_plainChar_eq_some_iff.2 h

/-- A plus is no digit. -/
theorem IsDigit.ne_plus (h : IsDigit c x) : c ≠ '+' := by
  rintro rfl
  cases hexDigit?_plainChar_eq_some_iff.2 h

/-- A character is read as one digit at most. -/
theorem IsDigit.unique (hx : IsDigit c x) (hy : IsDigit c y) : x = y := by
  rw [← hexDigit?_plainChar_eq_some_iff] at hx hy
  exact Option.some.inj (hx.symm.trans hy)

/-- A numeral of two characters has no spaces but at its ends. -/
theorem plain_pair (a b : Char) :
    plain [a, b] = [plainChar a, plainChar b].filter fun c => !isSpace c := by
  unfold plain dropEndWhile
  cases ha : isSpace (plainChar a) with
  | true =>
    cases hb : isSpace (plainChar b) with
    | true => simp [ha, hb]
    | false => simp [ha, hb]
  | false =>
    cases hb : isSpace (plainChar b) with
    | true => simp [ha, hb]
    | false => simp [ha, hb]

/-- Without a sign in front a number is not negative and loses no character. -/
theorem signed_of_ne {p : Char} (hminus : p ≠ '-') (hplus : p ≠ '+') (t : List Char) :
    signed (p :: t) = (false, p :: t) := by
  unfold signed
  split
  · next h => exact absurd (List.cons.inj h).1 hminus
  · next h => exact absurd (List.cons.inj h).1 hplus
  · rfl

/-- A number of one character is a digit. -/
theorem hexNumber?_singleton (p : Char) : hexNumber? [p] = (hexDigit? p).map Int.ofNat := by
  by_cases hminus : p = '-'
  · rw [hminus]
    rfl
  by_cases hplus : p = '+'
  · rw [hplus]
    rfl
  rw [hexNumber?, signed_of_ne hminus hplus]
  cases hp : hexDigit? p with
  | none => simp [hp]
  | some x => simp [hp]

/-- A plus in front of a digit changes nothing. -/
theorem hexNumber?_plus (q : Char) : hexNumber? ['+', q] = (hexDigit? q).map Int.ofNat := by
  cases hq : hexDigit? q with
  | none => simp [hexNumber?, signed, hq]
  | some y => simp [hexNumber?, signed, hq]

/-- A minus in front of a digit makes a negative number. -/
theorem hexNumber?_minus (q : Char) :
    hexNumber? ['-', q] = (hexDigit? q).map fun y : Nat => -(y : Int) := by
  cases hq : hexDigit? q with
  | none => simp [hexNumber?, signed, hq]
  | some y => simp [hexNumber?, signed, hq]

/-- Two characters without a sign are two digits. -/
theorem hexNumber?_pair {p : Char} (hminus : p ≠ '-') (hplus : p ≠ '+') (q : Char) :
    hexNumber? [p, q] = (hexDigit? p).bind fun x => (hexDigit? q).map fun y =>
      ((16 * x + y : Nat) : Int) := by
  rw [hexNumber?, signed_of_ne hminus hplus]
  cases hp : hexDigit? p with
  | none => simp [hp]
  | some x =>
    cases hq : hexDigit? q with
    | none => simp [hp, hq]
    | some y => simp [hp, hq]

/-- Whatever two characters are read as, they are one of the five forms. -/
theorem isComponent_of_component? (h : component? a b = some n) : IsComponent a b n := by
  rw [component?, plain_pair] at h
  -- A space is left out, so the number is read from two characters, from one or from none.
  cases ha : isSpace (plainChar a) with
  | true =>
    cases hb : isSpace (plainChar b) with
    | true =>
      simp only [ha, hb, List.filter, Bool.not_true] at h
      cases h
    | false =>
      simp only [ha, hb, List.filter, Bool.not_true, Bool.not_false, hexNumber?_singleton,
        Option.map_eq_some_iff] at h
      obtain ⟨y, hy, rfl⟩ := h
      exact .spaceBefore (isSpace_plainChar_iff.1 ha) (hexDigit?_plainChar_eq_some_iff.1 hy)
  | false =>
    cases hb : isSpace (plainChar b) with
    | true =>
      simp only [ha, hb, List.filter, Bool.not_true, Bool.not_false, hexNumber?_singleton,
        Option.map_eq_some_iff] at h
      obtain ⟨x, hx, rfl⟩ := h
      exact .spaceAfter (hexDigit?_plainChar_eq_some_iff.1 hx) (isSpace_plainChar_iff.1 hb)
    | false =>
      simp only [ha, hb, List.filter, Bool.not_false] at h
      -- No space is left out: the first of two characters may be a sign.
      by_cases hminus : plainChar a = '-'
      · rw [hminus, hexNumber?_minus, Option.map_eq_some_iff] at h
        obtain ⟨y, hy, rfl⟩ := h
        obtain rfl := (plainChar_eq_sign_iff (.inr rfl)).1 hminus
        exact .minus (hexDigit?_plainChar_eq_some_iff.1 hy)
      by_cases hplus : plainChar a = '+'
      · rw [hplus, hexNumber?_plus, Option.map_eq_some_iff] at h
        obtain ⟨y, hy, rfl⟩ := h
        obtain rfl := (plainChar_eq_sign_iff (.inl rfl)).1 hplus
        exact .plus (hexDigit?_plainChar_eq_some_iff.1 hy)
      rw [hexNumber?_pair hminus hplus] at h
      obtain ⟨x, hx, h⟩ := Option.bind_eq_some_iff.1 h
      obtain ⟨y, hy, rfl⟩ := Option.map_eq_some_iff.1 h
      exact .digits (hexDigit?_plainChar_eq_some_iff.1 hx) (hexDigit?_plainChar_eq_some_iff.1 hy)

/-- Each of the five forms is read as the number it stands for. -/
theorem component?_of_isComponent (h : IsComponent a b n) : component? a b = some n := by
  rw [component?, plain_pair]
  cases h with
  | digits ha hb =>
    have hx := hexDigit?_plainChar_eq_some_iff.2 ha
    have hy := hexDigit?_plainChar_eq_some_iff.2 hb
    -- The first digit is no sign, so both characters are digits of the number.
    have hminus : plainChar a ≠ '-' := fun h => ha.ne_minus ((plainChar_eq_sign_iff (.inr rfl)).1 h)
    have hplus : plainChar a ≠ '+' := fun h => ha.ne_plus ((plainChar_eq_sign_iff (.inl rfl)).1 h)
    simp only [List.filter, not_isSpace_of_hexDigit? hx, not_isSpace_of_hexDigit? hy, Bool.not_false]
    rw [hexNumber?_pair hminus hplus, hx, hy]
    rfl
  | plus hb =>
    have hy := hexDigit?_plainChar_eq_some_iff.2 hb
    have hplus : plainChar '+' = '+' := rfl
    have hspace : isSpace '+' = false := rfl
    simp only [List.filter, hplus, hspace, not_isSpace_of_hexDigit? hy, Bool.not_false]
    rw [hexNumber?_plus, hy]
    rfl
  | minus hb =>
    have hy := hexDigit?_plainChar_eq_some_iff.2 hb
    have hminus : plainChar '-' = '-' := rfl
    have hspace : isSpace '-' = false := rfl
    simp only [List.filter, hminus, hspace, not_isSpace_of_hexDigit? hy, Bool.not_false]
    rw [hexNumber?_minus, hy]
    rfl
  | spaceBefore ha hb =>
    have hy := hexDigit?_plainChar_eq_some_iff.2 hb
    simp only [List.filter, isSpace_plainChar_iff.2 ha, not_isSpace_of_hexDigit? hy, Bool.not_false,
      Bool.not_true]
    rw [hexNumber?_singleton, hy]
    rfl
  | spaceAfter ha hb =>
    have hx := hexDigit?_plainChar_eq_some_iff.2 ha
    simp only [List.filter, not_isSpace_of_hexDigit? hx, isSpace_plainChar_iff.2 hb, Bool.not_false,
      Bool.not_true]
    rw [hexNumber?_singleton, hx]
    rfl

/-- Two characters are read as a component exactly if they have one of the five forms. -/
theorem component?_eq_some_iff : component? a b = some n ↔ IsComponent a b n :=
  ⟨isComponent_of_component?, component?_of_isComponent⟩

/-- A character beside itself is no sign and no space, so it is a digit. -/
theorem isComponent_self_iff : IsComponent a a n ↔ ∃ x, IsDigit a x ∧ n = (16 * x + x : Nat) := by
  constructor
  · intro h
    cases h with
    | digits ha ha' =>
      obtain rfl := ha.unique ha'
      exact ⟨_, ha, rfl⟩
    | plus ha => exact absurd rfl ha.ne_plus
    | minus ha => exact absurd rfl ha.ne_minus
    | spaceBefore hspace ha => exact absurd hspace ha.not_isSpacing
    | spaceAfter ha hspace => exact absurd hspace ha.not_isSpacing
  · rintro ⟨x, ha, rfl⟩
    exact .digits ha ha

/-- Two digits make a number that can be displayed. -/
theorem digits_between (ha : IsDigit a x) (hb : IsDigit b y) :
    0 ≤ ((16 * x + y : Nat) : Int) ∧ ((16 * x + y : Nat) : Int) ≤ 255 := by
  have hx := ha.lt
  have hy := hb.lt
  omega

/-- No form makes a number that is too large. -/
theorem IsComponent.le (h : IsComponent a b n) : n ≤ 255 := by
  cases h with
  | digits ha hb => exact (digits_between ha hb).2
  | plus hb =>
    have hy := hb.lt
    omega
  | minus hb => omega
  | spaceBefore ha hb =>
    have hy := hb.lt
    omega
  | spaceAfter ha hb =>
    have hx := ha.lt
    omega

/-- Only a minus makes a component negative. -/
theorem IsComponent.nonneg (h : IsComponent a b n) (ha : a ≠ '-') : 0 ≤ n := by
  cases h with
  | minus hb => exact absurd rfl ha
  | digits _ _ => omega
  | plus _ => omega
  | spaceBefore _ _ => omega
  | spaceAfter _ _ => omega

/-! ## Colours -/

/-- A colour that can be shown. -/
structure IsDisplayable (color : Color) : Prop where
  red : 0 ≤ color.red ∧ color.red ≤ 255
  green : 0 ≤ color.green ∧ color.green ≤ 255
  blue : 0 ≤ color.blue ∧ color.blue ≤ 255

/-- A text is the colour in hexadecimal: a hash sign, and then one digit for each component, to be
doubled, or two. -/
inductive IsHex : List Char → Color → Prop where
  | short {a b c : Char} {x y z : Nat} (ha : hexDigit? a = some x) (hb : hexDigit? b = some y)
      (hc : hexDigit? c = some z) :
      IsHex ['#', a, b, c] ⟨(16 * x + x : Nat), (16 * y + y : Nat), (16 * z + z : Nat)⟩
  | long {a a' b b' c c' : Char} {x x' y y' z z' : Nat} (ha : hexDigit? a = some x)
      (ha' : hexDigit? a' = some x') (hb : hexDigit? b = some y) (hb' : hexDigit? b' = some y')
      (hc : hexDigit? c = some z) (hc' : hexDigit? c' = some z') :
      IsHex ['#', a, a', b, b', c, c'] ⟨(16 * x + x' : Nat), (16 * y + y' : Nat), (16 * z + z' : Nat)⟩

/-- A text is read as the colour: a hash sign, and then one digit of any script for each component, to be
doubled, or two characters that are read as it. -/
inductive IsRead : List Char → Color → Prop where
  | short {a b c : Char} {x y z : Nat} (ha : IsDigit a x) (hb : IsDigit b y) (hc : IsDigit c z) :
      IsRead ['#', a, b, c] ⟨(16 * x + x : Nat), (16 * y + y : Nat), (16 * z + z : Nat)⟩
  | long {a a' b b' c c' : Char} {r g u : Int} (ha : IsComponent a a' r) (hb : IsComponent b b' g)
      (hc : IsComponent c c' u) : IsRead ['#', a, a', b, b', c, c'] ⟨r, g, u⟩

variable {t : List Char} {color : Color}

/-- A colour is read if its three components are. -/
theorem build_eq_some_iff {a a' b b' c c' : Char} : ofText?.build a a' b b' c c' = some color ↔
    IsComponent a a' color.red ∧ IsComponent b b' color.green ∧ IsComponent c c' color.blue := by
  simp only [← component?_eq_some_iff, ofText?.build]
  constructor
  · intro h
    obtain ⟨r, hr, h⟩ := Option.bind_eq_some_iff.1 h
    obtain ⟨g, hg, h⟩ := Option.bind_eq_some_iff.1 h
    obtain ⟨u, hu, rfl⟩ := Option.map_eq_some_iff.1 h
    exact ⟨hr, hg, hu⟩
  · rintro ⟨hr, hg, hu⟩
    rw [hr, hg, hu]
    rfl

/-- What is read as a colour, in terms of the trimmed text. -/
theorem ofText?_eq_some_iff : ofText? t = some color ↔ IsRead (trim t) color := by
  constructor
  · intro h
    unfold ofText? at h
    split at h
    · next a b c htrim =>
        -- Each character stands beside itself.
        obtain ⟨hr, hg, hu⟩ := build_eq_some_iff.1 h
        obtain ⟨x, hx, hr⟩ := isComponent_self_iff.1 hr
        obtain ⟨y, hy, hg⟩ := isComponent_self_iff.1 hg
        obtain ⟨z, hz, hu⟩ := isComponent_self_iff.1 hu
        rw [htrim]
        cases color
        subst hr hg hu
        exact .short hx hy hz
    · next htrim =>
        obtain ⟨hr, hg, hu⟩ := build_eq_some_iff.1 h
        rw [htrim]
        exact .long hr hg hu
    · cases h
  · intro h
    unfold ofText?
    -- The text is matched after trimming, so only the trimmed text matters.
    generalize trim t = s at h
    cases h with
    | short ha hb hc =>
      exact build_eq_some_iff.2 ⟨.digits ha ha, .digits hb hb, .digits hc hc⟩
    | long ha hb hc => exact build_eq_some_iff.2 ⟨ha, hb, hc⟩

/-- Proper hexadecimal colours are read. -/
theorem IsHex.isRead (h : IsHex t color) : IsRead t color := by
  cases h with
  | short ha hb hc => exact .short (.ascii ha) (.ascii hb) (.ascii hc)
  | long ha ha' hb hb' hc hc' =>
    exact .long (.digits (.ascii ha) (.ascii ha')) (.digits (.ascii hb) (.ascii hb'))
      (.digits (.ascii hc) (.ascii hc'))

/-- Two proper digits are read as nothing but the number they write. -/
theorem IsComponent.eq_of_hexDigit? (h : IsComponent a b n) (ha : hexDigit? a = some x)
    (hb : hexDigit? b = some y) : n = (16 * x + y : Nat) := by
  rw [← component?_eq_some_iff] at h
  exact Option.some.inj (h.symm.trans (component?_of_isComponent (.digits (.ascii ha) (.ascii hb))))

/-- With hexadecimal digits only, there is nothing else that is read as a colour. -/
theorem isHex_of_isRead (h : IsRead t color) (hdigits : ∀ d ∈ t.tail, (hexDigit? d).isSome = true) :
    IsHex t color := by
  simp only [Option.isSome_iff_exists] at hdigits
  cases h with
  | @short a b c x y z ha hb hc =>
    -- A character that is a proper digit is read as that digit only.
    obtain ⟨x', hx⟩ := hdigits a (by simp)
    obtain ⟨y', hy⟩ := hdigits b (by simp)
    obtain ⟨z', hz⟩ := hdigits c (by simp)
    obtain rfl := ha.unique (.ascii hx)
    obtain rfl := hb.unique (.ascii hy)
    obtain rfl := hc.unique (.ascii hz)
    exact .short hx hy hz
  | @long a a' b b' c c' r g u ha hb hc =>
    obtain ⟨x, hx⟩ := hdigits a (by simp)
    obtain ⟨x', hx'⟩ := hdigits a' (by simp)
    obtain ⟨y, hy⟩ := hdigits b (by simp)
    obtain ⟨y', hy'⟩ := hdigits b' (by simp)
    obtain ⟨z, hz⟩ := hdigits c (by simp)
    obtain ⟨z', hz'⟩ := hdigits c' (by simp)
    obtain rfl := ha.eq_of_hexDigit? hx hx'
    obtain rfl := hb.eq_of_hexDigit? hy hy'
    obtain rfl := hc.eq_of_hexDigit? hz hz'
    exact .long hx hx' hy hy' hz hz'

/-- Proper hexadecimal colours can be displayed. -/
theorem IsHex.isDisplayable (h : IsHex t color) : IsDisplayable color := by
  cases h with
  | short ha hb hc =>
    exact ⟨digits_between (.ascii ha) (.ascii ha), digits_between (.ascii hb) (.ascii hb),
      digits_between (.ascii hc) (.ascii hc)⟩
  | long ha ha' hb hb' hc hc' =>
    exact ⟨digits_between (.ascii ha) (.ascii ha'), digits_between (.ascii hb) (.ascii hb'),
      digits_between (.ascii hc) (.ascii hc')⟩

/-- Without a minus whatever is read can be displayed. -/
theorem IsRead.isDisplayable (h : IsRead t color) (hminus : '-' ∉ t) : IsDisplayable color := by
  cases h with
  | short ha hb hc => exact ⟨digits_between ha ha, digits_between hb hb, digits_between hc hc⟩
  | long ha hb hc =>
    simp only [List.mem_cons, not_or] at hminus
    obtain ⟨-, hr, -, hg, -, hu, -, -⟩ := hminus
    exact ⟨⟨ha.nonneg (Ne.symm hr), ha.le⟩, ⟨hb.nonneg (Ne.symm hg), hb.le⟩,
      ⟨hc.nonneg (Ne.symm hu), hc.le⟩⟩

/-- A text that is a colour in hexadecimal but for the blanks around it is read as this colour, which can
be shown. Other texts are read as colours too, where a component has a sign, a space or a digit of another
script; only with a minus can the colour be one that cannot be shown. -/
theorem ofText?_hexadecimal (t : List Char) (color : Color) :
    (ofText? t = some color ↔ IsRead (trim t) color) ∧
      (IsHex (trim t) color → ofText? t = some color ∧ IsDisplayable color) ∧
      (ofText? t = some color → (∀ d ∈ (trim t).tail, (hexDigit? d).isSome = true) →
        IsHex (trim t) color) ∧
      (ofText? t = some color → '-' ∉ trim t → IsDisplayable color) := by
  refine ⟨ofText?_eq_some_iff, ?_, ?_, ?_⟩
  · intro h
    exact ⟨ofText?_eq_some_iff.2 h.isRead, h.isDisplayable⟩
  · intro h hdigits
    exact isHex_of_isRead (ofText?_eq_some_iff.1 h) hdigits
  · intro h hminus
    exact (ofText?_eq_some_iff.1 h).isDisplayable hminus

/-- The short form with blanks around it. -/
theorem ofText?_hexadecimal_of_short : IsHex (trim " #f96 ".toList) ⟨255, 153, 102⟩ ∧
    ofText? " #f96 ".toList = some ⟨255, 153, 102⟩ ∧ IsDisplayable ⟨255, 153, 102⟩ := by
  have hread : ofText? " #f96 ".toList = some ⟨255, 153, 102⟩ := by decide
  obtain ⟨-, hproper, hhex, -⟩ := ofText?_hexadecimal " #f96 ".toList ⟨255, 153, 102⟩
  have hdigits : (trim " #f96 ".toList).tail.all (fun d => (hexDigit? d).isSome) = true := by decide
  have h := hhex hread (List.all_eq_true.1 hdigits)
  exact ⟨h, hproper h⟩

/-- Signs are read although they are no digits; the colour cannot be shown. -/
theorem ofText?_of_signs : ofText? "#-1-1-1".toList = some ⟨-1, -1, -1⟩ ∧
    (¬∃ color, IsHex (trim "#-1-1-1".toList) color) ∧ ¬IsDisplayable ⟨-1, -1, -1⟩ := by
  refine ⟨by decide, ?_, ?_⟩
  · rintro ⟨color, h⟩
    have htrim : trim "#-1-1-1".toList = ['#', '-', '1', '-', '1', '-', '1'] := by decide
    rw [htrim] at h
    cases h with
    | long ha ha' hb hb' hc hc' => cases ha
  · intro h
    exact absurd h.red.1 (by decide)

end Color

end TextDiagram
