import Mathlib.Data.List.Basic
import Mathlib.Data.Nat.Notation
import Mathlib.Tactic.Linarith
import Mathlib.Tactic.Ring

/-!
# Decoding UTF-8

The decoder which never fails: bytes which belong to no character become
`U+FFFD`, one for each longest prefix of a sequence.  Every character keeps the
bytes it has been made of.
-/

namespace Utf8

def replacement : Char := Char.ofNat 0xFFFD

def IsHighScalar (n : ℕ) : Prop :=
  128 ≤ n ∧ n.isValidChar

/-- A sequence which is not complete: the value so far, the bytes needed after
the next one, and the bounds of the next one. -/
structure Pending where
  codePoint : ℕ
  more : ℕ
  lower : ℕ
  upper : ℕ
  high : 128 ≤ lower
  scalar : ∀ byte, lower ≤ byte → byte ≤ upper → ∀ low < 64 ^ more,
    IsHighScalar ((codePoint * 64 + byte % 64) * 64 ^ more + low)

inductive Start
  | char (c : Char)
  | sequence (pending : Pending)
  | invalid

def twoBytes (byte : ℕ) (hlow : 0xC2 ≤ byte) (hhigh : byte < 0xE0) : Pending where
  codePoint := byte - 0xC0
  more := 0
  lower := 0x80
  upper := 0xBF
  high := by decide
  scalar := by
    intro next hlower hupper low hlt
    simp only [IsHighScalar, Nat.isValidChar] at *
    omega

def threeBytes (byte : ℕ) (hlow : 0xE0 ≤ byte) (hhigh : byte < 0xF0) : Pending where
  codePoint := byte - 0xE0
  more := 1
  lower := if byte = 0xE0 then 0xA0 else 0x80
  upper := if byte = 0xED then 0x9F else 0xBF
  high := by split <;> decide
  scalar := by
    intro next hlower hupper low hlt
    simp only [IsHighScalar, Nat.isValidChar] at *
    split at hlower <;> split at hupper <;> omega

def fourBytes (byte : ℕ) (hlow : 0xF0 ≤ byte) (hhigh : byte < 0xF5) : Pending where
  codePoint := byte - 0xF0
  more := 2
  lower := if byte = 0xF0 then 0x90 else 0x80
  upper := if byte = 0xF4 then 0x8F else 0xBF
  high := by split <;> decide
  scalar := by
    intro next hlower hupper low hlt
    simp only [IsHighScalar, Nat.isValidChar] at *
    split at hlower <;> split at hupper <;> omega

def start (byte : ℕ) : Start :=
  if byte < 0x80 then .char (Char.ofNat byte)
  else if hlow : byte < 0xC2 then .invalid
  else if htwo : byte < 0xE0 then .sequence (twoBytes byte (by omega) htwo)
  else if hthree : byte < 0xF0 then .sequence (threeBytes byte (by omega) hthree)
  else if hfour : byte < 0xF5 then .sequence (fourBytes byte (by omega) hfour)
  else .invalid

theorem next_scalar (pending : Pending) {more byte : ℕ} (hmore : pending.more = more + 1)
    (hlower : pending.lower ≤ byte) (hupper : byte ≤ pending.upper) (next low : ℕ)
    (hlow : low < 64 ^ more) :
    IsHighScalar (((pending.codePoint * 64 + byte % 64) * 64 + next % 64) * 64 ^ more +
      low) := by
  have hnext : next % 64 < 64 := Nat.mod_lt _ (by decide)
  have hbound : next % 64 * 64 ^ more + low < 64 ^ pending.more := by
    calc next % 64 * 64 ^ more + low
        < next % 64 * 64 ^ more + 64 ^ more := Nat.add_lt_add_left hlow _
      _ = (next % 64 + 1) * 64 ^ more := by ring
      _ ≤ 64 * 64 ^ more := Nat.mul_le_mul_right _ hnext
      _ = 64 ^ pending.more := by rw [hmore, pow_succ, mul_comm]
  have hscalar := pending.scalar byte hlower hupper _ hbound
  rw [hmore, pow_succ] at hscalar
  convert hscalar using 1
  ring

section Chunks

variable {β γ : Type*}

/-- The sequence which has begun, with its bytes. -/
abbrev State (β : Type*) := Option (Pending × List β)

def State.seen : State β → List β
  | none => []
  | some (_, seen) => seen

/-- The characters which a byte completes, each with its bytes, and the
sequence which is left. -/
abbrev Step (β : Type*) := List (Char × List β) × State β

variable (byte : β → UInt8)

def beginAt (b : β) : Step β :=
  match start (byte b).toNat with
  | .char c => ([(c, [b])], none)
  | .sequence pending => ([], some (pending, [b]))
  | .invalid => ([(replacement, [b])], none)

def continueWith (pending : Pending) (seen : List β) (b : β) : Step β :=
  if hbounds : pending.lower ≤ (byte b).toNat ∧ (byte b).toNat ≤ pending.upper then
    match hmore : pending.more with
    | 0 => ([(Char.ofNat (pending.codePoint * 64 + (byte b).toNat % 64),
        seen ++ [b])], none)
    | more + 1 =>
        ([], some ({
          codePoint := pending.codePoint * 64 + (byte b).toNat % 64
          more := more
          lower := 0x80
          upper := 0xBF
          high := by decide
          scalar := fun next _ _ =>
            next_scalar pending hmore hbounds.1 hbounds.2 next }, seen ++ [b]))
  else
    ((replacement, seen) :: (beginAt byte b).1, (beginAt byte b).2)

def step (state : State β) (b : β) : Step β :=
  match state with
  | none => beginAt byte b
  | some (pending, seen) => continueWith byte pending seen b

def finish : State β → List (Char × List β)
  | none => []
  | some (_, seen) => [(replacement, seen)]

def chunksFrom (state : State β) : List β → List (Char × List β)
  | [] => finish state
  | b :: rest => (step byte state b).1 ++ chunksFrom (step byte state b).2 rest

def chunks (bytes : List β) : List (Char × List β) :=
  chunksFrom byte none bytes

/-! ## Every byte belongs to one character -/

theorem beginAt_bytes (b : β) :
    (beginAt byte b).1.flatMap Prod.snd ++ (beginAt byte b).2.seen = [b] := by
  unfold beginAt
  cases start (byte b).toNat <;> rfl

theorem step_bytes (state : State β) (b : β) :
    (step byte state b).1.flatMap Prod.snd ++ (step byte state b).2.seen =
      state.seen ++ [b] := by
  cases state with
  | none => exact beginAt_bytes byte b
  | some sequence =>
      obtain ⟨pending, seen⟩ := sequence
      simp only [step, continueWith]
      split
      · split <;> simp [State.seen]
      · rw [List.flatMap_cons, List.append_assoc, beginAt_bytes]
        rfl

theorem chunksFrom_bytes (state : State β) (bytes : List β) :
    (chunksFrom byte state bytes).flatMap Prod.snd = state.seen ++ bytes := by
  induction bytes generalizing state with
  | nil => cases state <;> simp [chunksFrom, finish, State.seen]
  | cons b rest ih =>
      rw [chunksFrom, List.flatMap_append, ih, ← List.append_assoc, step_bytes,
        List.append_assoc, List.singleton_append]

theorem chunks_bytes (bytes : List β) :
    (chunks byte bytes).flatMap Prod.snd = bytes :=
  chunksFrom_bytes byte none bytes

theorem chunks_eq_nil {bytes : List β} : chunks byte bytes = [] ↔ bytes = [] := by
  constructor
  · intro hnil
    rw [← chunks_bytes byte bytes, hnil, List.flatMap_nil]
  · rintro rfl
    rfl

/-! ## A change of the bytes' type -/

def State.map (f : β → γ) : State β → State γ
  | none => none
  | some (pending, seen) => some (pending, seen.map f)

def mapChunk (f : β → γ) (chunk : Char × List β) : Char × List γ :=
  (chunk.1, chunk.2.map f)

variable (code : γ → UInt8) (f : β → γ)

theorem beginAt_map (b : β) :
    beginAt code (f b) =
      ((beginAt (code ∘ f) b).1.map (mapChunk f), (beginAt (code ∘ f) b).2.map f) := by
  simp only [beginAt, Function.comp_apply]
  cases start (code (f b)).toNat <;> rfl

theorem step_map (state : State β) (b : β) :
    step code (state.map f) (f b) =
      ((step (code ∘ f) state b).1.map (mapChunk f),
        (step (code ∘ f) state b).2.map f) := by
  cases state with
  | none => exact beginAt_map code f b
  | some sequence =>
      obtain ⟨pending, seen⟩ := sequence
      simp only [step, State.map, continueWith, Function.comp_apply]
      split
      · split
        · simp [mapChunk]
        · simp
      · rw [beginAt_map]
        rfl

theorem chunksFrom_map (state : State β) (bytes : List β) :
    chunksFrom code (state.map f) (bytes.map f) =
      (chunksFrom (code ∘ f) state bytes).map (mapChunk f) := by
  induction bytes generalizing state with
  | nil => cases state <;> rfl
  | cons b rest ih =>
      rw [List.map_cons, chunksFrom, chunksFrom, step_map, ih, List.map_append]

theorem chunks_map (bytes : List β) :
    chunks code (bytes.map f) = (chunks (code ∘ f) bytes).map (mapChunk f) :=
  chunksFrom_map code f none bytes

/-! ## ASCII bytes stand for themselves -/

variable {byte}

theorem beginAt_ascii {b : β} (hascii : (byte b).toNat < 128) :
    beginAt byte b = ([(Char.ofNat (byte b).toNat, [b])], none) := by
  simp [beginAt, start, hascii]

theorem step_ascii (state : State β) {b : β} (hascii : (byte b).toNat < 128) :
    step byte state b =
      (finish state ++ [(Char.ofNat (byte b).toNat, [b])], none) := by
  cases state with
  | none => exact beginAt_ascii hascii
  | some sequence =>
      obtain ⟨pending, seen⟩ := sequence
      have hoff : ¬ (pending.lower ≤ (byte b).toNat ∧
          (byte b).toNat ≤ pending.upper) := by
        have := pending.high
        omega
      rw [step, continueWith, dif_neg hoff, beginAt_ascii hascii]
      rfl

theorem chunksFrom_append_ascii (state : State β) (before after : List β) {b : β}
    (hascii : (byte b).toNat < 128) :
    chunksFrom byte state (before ++ b :: after) =
      chunksFrom byte state before ++
        (Char.ofNat (byte b).toNat, [b]) :: chunks byte after := by
  induction before generalizing state with
  | nil =>
      rw [List.nil_append, chunksFrom.eq_2, step_ascii state hascii, List.append_assoc]
      cases state <;> rfl
  | cons other rest ih =>
      rw [List.cons_append, chunksFrom, ih, chunksFrom, List.append_assoc]

theorem chunks_append_ascii (before after : List β) {b : β}
    (hascii : (byte b).toNat < 128) :
    chunks byte (before ++ b :: after) =
      chunks byte before ++ (Char.ofNat (byte b).toNat, [b]) :: chunks byte after :=
  chunksFrom_append_ascii none before after hascii

/-- An ASCII character has been made of its own byte. -/
def OwnByte (byte : β → UInt8) (chunk : Char × List β) : Prop :=
  chunk.1.toNat < 128 → ∃ b, chunk.2 = [b] ∧ (byte b).toNat = chunk.1.toNat

theorem toNat_ofNat {n : ℕ} (hvalid : n.isValidChar) : (Char.ofNat n).toNat = n := by
  rw [Char.ofNat, dif_pos hvalid]
  rfl

theorem IsHighScalar.toNat {n : ℕ} (hscalar : IsHighScalar n) :
    128 ≤ (Char.ofNat n).toNat := by
  rw [toNat_ofNat hscalar.2]
  exact hscalar.1

theorem own_replacement (seen : List β) : OwnByte byte (replacement, seen) :=
  fun hlt => absurd hlt (show ¬ replacement.toNat < 128 by decide)

theorem beginAt_own (b : β) : ∀ chunk ∈ (beginAt byte b).1, OwnByte byte chunk := by
  intro chunk hchunk hlt
  by_cases hascii : (byte b).toNat < 128
  · rw [beginAt_ascii hascii, List.mem_singleton] at hchunk
    subst hchunk
    exact ⟨b, rfl, (toNat_ofNat (Or.inl (by omega))).symm⟩
  · simp only [beginAt, start, if_neg hascii] at hchunk
    split at hchunk
    · rename_i hstart
      revert hstart
      repeat' split
      all_goals simp
    · cases hchunk
    · rw [List.mem_singleton] at hchunk
      subst hchunk
      exact own_replacement [b] hlt

theorem step_own (state : State β) (b : β) :
    ∀ chunk ∈ (step byte state b).1, OwnByte byte chunk := by
  cases state with
  | none => exact beginAt_own b
  | some sequence =>
      obtain ⟨pending, seen⟩ := sequence
      intro chunk hchunk
      simp only [step, continueWith] at hchunk
      split at hchunk
      · rename_i hbounds
        split at hchunk
        · rename_i hmore
          rw [List.mem_singleton] at hchunk
          subst hchunk
          intro hlt
          have hscalar := pending.scalar _ hbounds.1 hbounds.2 0 (by positivity)
          rw [hmore, pow_zero, mul_one, add_zero] at hscalar
          exact absurd hlt hscalar.toNat.not_gt
        · cases hchunk
      · rcases List.mem_cons.mp hchunk with rfl | hrest
        · exact own_replacement seen
        · exact beginAt_own b chunk hrest

theorem chunksFrom_own (state : State β) (bytes : List β) :
    ∀ chunk ∈ chunksFrom byte state bytes, OwnByte byte chunk := by
  induction bytes generalizing state with
  | nil =>
      intro chunk hchunk
      cases state with
      | none => cases hchunk
      | some sequence =>
          rw [chunksFrom, finish, List.mem_singleton] at hchunk
          exact hchunk ▸ own_replacement sequence.2
  | cons b rest ih =>
      intro chunk hchunk
      rcases List.mem_append.mp hchunk with hstep | hrest
      · exact step_own state b chunk hstep
      · exact ih _ chunk hrest

theorem chunks_own {bytes : List β} {chunk : Char × List β}
    (hchunk : chunk ∈ chunks byte bytes) : OwnByte byte chunk :=
  chunksFrom_own none bytes chunk hchunk

end Chunks

end Utf8
