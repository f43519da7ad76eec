import Pm2Manager.Calendar

/-!
# Texts of fixed width

A format is a sequence of numbers of fixed width and of separators.  What a
format prints it scans again, and it scans nothing else.
-/

namespace FixedWidth

open Calendar

inductive Field
  | digits (width : ℕ)
  | separator (c : Char)
deriving DecidableEq, Repr

abbrev Format := List Field

def digitValue (c : Char) : ℕ :=
  c.toNat - '0'.toNat

/-- The number which a text of digits writes. -/
def valueOf : List Char → ℕ
  | [] => 0
  | c :: rest => digitValue c * 10 ^ rest.length + valueOf rest

namespace Format

def print : Format → List ℕ → List Char
  | .digits width :: format, value :: values => pad width value ++ print format values
  | .separator c :: format, values => c :: print format values
  | _, _ => []

/-- The whole text has to fit. -/
def scan : Format → List Char → Option (List ℕ)
  | [], [] => some []
  | [], _ :: _ => none
  | .digits width :: format, text =>
      let number := text.take width
      if number.length = width ∧ number.all Char.isDigit then
        (scan format (text.drop width)).map (valueOf number :: ·)
      else
        none
  | .separator c :: format, text =>
      match text with
      | [] => none
      | head :: rest => if head = c then scan format rest else none

/-- One value for each number, of its width. -/
def Fits : Format → List ℕ → Prop
  | [], [] => True
  | .digits width :: format, value :: values => value < 10 ^ width ∧ Fits format values
  | .separator _ :: format, values => Fits format values
  | _, _ => False

end Format

/-! ## Digits -/

theorem digitValue_digit {d : ℕ} (hd : d < 10) : digitValue (digit d) = d := by
  have hall : ∀ d < 10, digitValue (digit d) = d := by decide
  exact hall d hd

theorem toNat_of_isDigit {c : Char} (hc : c.isDigit = true) :
    48 ≤ c.toNat ∧ c.toNat ≤ 57 := by
  have hbounds : 48 ≤ c.val ∧ c.val ≤ 57 := by simpa [Char.isDigit] using hc
  exact ⟨UInt32.le_iff_toNat_le.mp hbounds.1, UInt32.le_iff_toNat_le.mp hbounds.2⟩

theorem digitValue_lt {c : Char} (hc : c.isDigit = true) : digitValue c < 10 := by
  have hbounds := toNat_of_isDigit hc
  have hzero : '0'.toNat = 48 := rfl
  unfold digitValue
  omega

theorem digit_digitValue {c : Char} (hc : c.isDigit = true) :
    digit (digitValue c) = c := by
  have hbounds := toNat_of_isDigit hc
  have hzero : '0'.toNat = 48 := rfl
  have hsum : '0'.toNat + digitValue c = c.toNat := by
    unfold digitValue
    omega
  rw [digit, hsum, Char.ofNat_toNat]

theorem valueOf_pad {width n : ℕ} (hn : n < 10 ^ width) : valueOf (pad width n) = n := by
  induction width generalizing n with
  | zero =>
      simp only [pow_zero, Nat.lt_one_iff] at hn
      simp [pad, valueOf, hn]
  | succ width ih =>
      have hpos : 0 < 10 ^ width := Nat.pow_pos (by decide)
      have hhead : n / 10 ^ width < 10 :=
        Nat.div_lt_of_lt_mul (by rwa [← pow_succ])
      simp only [pad, valueOf, length_pad, digitValue_digit hhead,
        ih (Nat.mod_lt n hpos)]
      exact Nat.div_add_mod' n (10 ^ width)

theorem valueOf_lt {text : List Char} (htext : ∀ c ∈ text, c.isDigit = true) :
    valueOf text < 10 ^ text.length := by
  induction text with
  | nil => simp [valueOf]
  | cons c text ih =>
      have hc : digitValue c < 10 := digitValue_lt (htext c (by simp))
      have hrest : valueOf text < 10 ^ text.length :=
        ih fun d hd => htext d (by simp [hd])
      rw [valueOf, List.length_cons, pow_succ]
      calc digitValue c * 10 ^ text.length + valueOf text
          < digitValue c * 10 ^ text.length + 10 ^ text.length := by omega
        _ = (digitValue c + 1) * 10 ^ text.length := by ring
        _ ≤ 10 * 10 ^ text.length := Nat.mul_le_mul_right _ hc
        _ = 10 ^ text.length * 10 := by ring

theorem pad_valueOf {text : List Char} (htext : ∀ c ∈ text, c.isDigit = true) :
    pad text.length (valueOf text) = text := by
  induction text with
  | nil => rfl
  | cons c text ih =>
      have hdigits : ∀ d ∈ text, d.isDigit = true := fun d hd => htext d (by simp [hd])
      have hlt := valueOf_lt hdigits
      have hpos : 0 < 10 ^ text.length := Nat.pow_pos (by decide)
      have hhead : valueOf (c :: text) / 10 ^ text.length = digitValue c := by
        rw [valueOf, mul_comm, Nat.mul_add_div hpos, Nat.div_eq_of_lt hlt, add_zero]
      have htail : valueOf (c :: text) % 10 ^ text.length = valueOf text := by
        rw [valueOf, mul_comm, Nat.mul_add_mod, Nat.mod_eq_of_lt hlt]
      rw [List.length_cons, pad, hhead, htail, ih hdigits,
        digit_digitValue (htext c (by simp))]

/-! ## Round trips -/

variable {format : Format} {values : List ℕ} {text : List Char}

theorem Format.scan_print (hfits : format.Fits values) :
    format.scan (format.print values) = some values := by
  induction format generalizing values with
  | nil =>
      cases values with
      | nil => rfl
      | cons value values => exact hfits.elim
  | cons field format ih =>
      cases field with
      | separator c =>
          simp only [Format.print, Format.scan, if_true]
          exact ih hfits
      | digits width =>
          cases values with
          | nil => exact hfits.elim
          | cons value values =>
              obtain ⟨hvalue, hrest⟩ := hfits
              have hall : (pad width value).all Char.isDigit = true :=
                List.all_eq_true.mpr (isDigit_of_mem_pad width value hvalue)
              have htake : (pad width value ++ Format.print format values).take width =
                  pad width value := List.take_left' (length_pad width value)
              have hdrop : (pad width value ++ Format.print format values).drop width =
                  Format.print format values := List.drop_left' (length_pad width value)
              simp only [Format.print, Format.scan, htake, hdrop, length_pad, hall,
                and_self, if_true, ih hrest, valueOf_pad hvalue, Option.map_some]

theorem Format.print_of_scan (hscan : format.scan text = some values) :
    format.Fits values ∧ format.print values = text := by
  induction format generalizing values text with
  | nil =>
      cases text with
      | nil =>
          obtain rfl := Option.some.inj hscan
          exact ⟨trivial, rfl⟩
      | cons c text => simp [Format.scan] at hscan
  | cons field format ih =>
      cases field with
      | separator c =>
          cases text with
          | nil => simp [Format.scan] at hscan
          | cons head rest =>
              simp only [Format.scan] at hscan
              split at hscan
              next hhead =>
                obtain ⟨hfits, hprint⟩ := ih hscan
                exact ⟨hfits, by rw [Format.print, hprint, hhead]⟩
              · simp at hscan
      | digits width =>
          simp only [Format.scan] at hscan
          split at hscan
          next hnumber =>
            obtain ⟨hlength, hall⟩ := hnumber
            obtain ⟨others, hothers, rfl⟩ := Option.map_eq_some_iff.mp hscan
            obtain ⟨hfits, hprint⟩ := ih hothers
            have hdigits := List.all_eq_true.mp hall
            refine ⟨⟨?_, hfits⟩, ?_⟩
            · simpa [hlength] using valueOf_lt hdigits
            · have hpad := pad_valueOf hdigits
              rw [hlength] at hpad
              rw [Format.print, hpad, hprint, List.take_append_drop]
          · simp at hscan

/-- A text is scanned as the values of which it is the print. -/
theorem Format.scan_eq_some_iff :
    format.scan text = some values ↔ format.Fits values ∧ format.print values = text := by
  constructor
  · exact Format.print_of_scan
  · rintro ⟨hfits, rfl⟩
    exact Format.scan_print hfits

end FixedWidth
