import Mathlib.Algebra.Order.Ring.Nat
import Mathlib.Data.List.Basic

/-!
# Strings as a script engine sees them

Trimming, the length in UTF-16 units, folding of ASCII letters and decimal
numerals, as definitions which evaluate.  A string is read as its list of
code points throughout.
-/

namespace ScriptText

/-- The code points removed by `trim`: white space and line terminators. -/
def isSpace (c : Char) : Bool :=
  c.toNat ∈ [0x9, 0xA, 0xB, 0xC, 0xD, 0x20, 0xA0, 0x1680, 0x2000, 0x2001,
    0x2002, 0x2003, 0x2004, 0x2005, 0x2006, 0x2007, 0x2008, 0x2009, 0x200A,
    0x2028, 0x2029, 0x202F, 0x205F, 0x3000, 0xFEFF]

def trimStart (chars : List Char) : List Char :=
  chars.dropWhile isSpace

def trimEnd (chars : List Char) : List Char :=
  (trimStart chars.reverse).reverse

def trim (text : String) : String :=
  String.ofList (trimEnd (trimStart text.toList))

/-- Code points outside the basic plane take two units. -/
def utf16Length (text : String) : ℕ :=
  (text.toList.map fun c => if c.toNat < 0x10000 then 1 else 2).sum

def lowerAscii (c : Char) : Char :=
  if 'A' ≤ c ∧ c ≤ 'Z' then Char.ofNat (c.toNat + 32) else c

def foldCase (text : String) : List Char :=
  text.toList.map lowerAscii

/-! ## Trimming -/

theorem trim_sublist (text : String) :
    (trim text).toList.Sublist text.toList := by
  have hstart : ∀ chars : List Char, (trimStart chars).Sublist chars :=
    fun chars => List.dropWhile_sublist _
  have hend : ∀ chars : List Char, (trimEnd chars).Sublist chars := by
    intro chars
    have hreverse := (hstart chars.reverse).reverse
    rwa [List.reverse_reverse] at hreverse
  rw [trim, String.toList_ofList]
  exact (hend _).trans (hstart _)

/-- Trimming which removes something also changes the folded text. -/
theorem trim_eq_of_foldCase {text : String}
    (hfold : foldCase (trim text) = foldCase text) : trim text = text := by
  have hlength := congrArg List.length hfold
  simp only [foldCase, List.length_map] at hlength
  exact String.toList_inj.mp ((trim_sublist text).eq_of_length hlength)

theorem trimStart_eq_self {chars : List Char}
    (hhead : ∀ c ∈ chars.head?, isSpace c = false) : trimStart chars = chars := by
  cases chars with
  | nil => rfl
  | cons c rest =>
      have hfalse : isSpace c = false := hhead c rfl
      simp [trimStart, hfalse]

theorem head_trimStart (chars : List Char) :
    ∀ c ∈ (trimStart chars).head?, isSpace c = false := by
  intro c hc
  have hhead := List.head?_dropWhile_not isSpace chars
  rw [trimStart] at hc
  rw [Option.mem_def.mp hc] at hhead
  exact hhead

theorem trimEnd_trimEnd (chars : List Char) :
    trimEnd (trimEnd chars) = trimEnd chars := by
  rw [trimEnd, trimEnd, List.reverse_reverse,
    trimStart_eq_self (head_trimStart chars.reverse)]

/-- What is left at the end keeps its first code point. -/
theorem trimStart_trimEnd (chars : List Char)
    (hhead : ∀ c ∈ chars.head?, isSpace c = false) :
    trimStart (trimEnd chars) = trimEnd chars := by
  have hprefix : (trimEnd chars).IsPrefix chars := by
    have hsuffix := List.dropWhile_suffix isSpace (l := chars.reverse)
    rw [← List.reverse_prefix, List.reverse_reverse] at hsuffix
    exact hsuffix
  refine trimStart_eq_self fun c hc => ?_
  obtain ⟨rest, hrest⟩ := hprefix
  refine hhead c ?_
  rw [← hrest, List.head?_append, Option.mem_def.mp hc]
  rfl

theorem trim_trim (text : String) : trim (trim text) = trim text := by
  have htrimmed := trimStart_trimEnd (trimStart text.toList)
    (head_trimStart text.toList)
  simp only [trim, String.toList_ofList, htrimmed, trimEnd_trimEnd]

/-! ## Numerals -/

def isDigit (c : Char) : Bool :=
  '0' ≤ c ∧ c ≤ '9'

/-- One or more decimal digits and nothing else. -/
def isNumeral (text : String) : Bool :=
  !text.toList.isEmpty && text.toList.all isDigit

def startsWith (lead text : String) : Bool :=
  lead.toList.isPrefixOf text.toList

/-- An optional text which is neither absent nor empty. -/
def truthy (text : Option String) : Option String :=
  text.filter fun text => text ≠ ""

def numeralValue (text : String) : ℕ :=
  text.toList.foldl (fun value c => 10 * value + (c.toNat - '0'.toNat)) 0

/-- The double nearest to a natural number below the range of doubles: 53
significant bits, a tie going to the even neighbour. -/
def roundDouble (value : ℕ) : ℕ :=
  let unit := 2 ^ (value.log2 - 52)
  let low := value / unit * unit
  let rest := value - low
  if 2 * rest < unit ∨ 2 * rest = unit ∧ value / unit % 2 = 0 then low
  else low + unit

theorem roundDouble_of_lt {value : ℕ} (hvalue : value < 2 ^ 53) :
    roundDouble value = value := by
  have hlog : value.log2 - 52 = 0 := by
    rcases Nat.eq_zero_or_pos value with rfl | hpos
    · rfl
    · have hlt := (Nat.log2_lt (Nat.ne_of_gt hpos)).mpr hvalue
      omega
  simp [roundDouble, hlog]

/-- `Number(text)` of a numeral. -/
def toNumber (text : String) : ℕ :=
  roundDouble (numeralValue text)

theorem toNumber_of_lt {text : String} (hvalue : numeralValue text < 2 ^ 53) :
    toNumber text = numeralValue text :=
  roundDouble_of_lt hvalue

/-! ## The numeral of a number -/

theorem numeralValue_toString (n : ℕ) : numeralValue (toString n) = n := by
  rw [numeralValue, Nat.toString_eq_ofList_toDigits, String.toList_ofList,
    ← Nat.ofDigitChars_eq_foldl, Nat.ofDigitChars_ten_toDigits]

theorem isNumeral_toString (n : ℕ) : isNumeral (toString n) = true := by
  rw [isNumeral, Nat.toString_eq_ofList_toDigits, String.toList_ofList]
  simp only [Bool.and_eq_true, Bool.not_eq_true', List.isEmpty_eq_false_iff]
  refine ⟨Nat.toDigits_ne_nil, List.all_eq_true.mpr fun c hc => ?_⟩
  have hdigit := Nat.isDigit_of_mem_toDigits (by decide) (by decide) hc
  simpa [isDigit, Char.isDigit, Char.le_def] using hdigit

theorem toNumber_toString {n : ℕ} (hn : n < 2 ^ 53) : toNumber (toString n) = n := by
  rw [toNumber_of_lt, numeralValue_toString]
  rwa [numeralValue_toString]

example : toNumber "007" = 7 := by decide

example : toNumber "9007199254740993" = 9007199254740992 := by decide +kernel

end ScriptText
