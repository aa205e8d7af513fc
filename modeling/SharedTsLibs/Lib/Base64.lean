import Mathlib.Data.List.DropRight
import Mathlib.Data.Nat.Notation
import Mathlib.Data.Fin.Basic

/-!
# Base64

Bytes written with sixty-four letters, in the standard and in the URL alphabet, with and
without padding.

* `sextets`, `bytes` — three bytes as four groups of six bits, and back.
* `bytes_sextets` — the groups determine the bytes.
* `letter`, `value` — the standard alphabet; `toUrl`, `toStandard` — the URL alphabet.
* `padded`, `forgiving` — the padded text, and the reader that puts up with blanks and with
  missing padding.
* `forgiving_padded`, `lenient_letters` — the readers give the bytes back.
-/

namespace Base64

/-- Six bits. -/
abbrev Sextet := Fin 64

/-! ## Groups of six bits -/

/-- The lowest six bits of a number. -/
def sextet (n : ℕ) : Sextet := Fin.ofNat 64 n

/-- Bytes cut into groups of six bits, the last one filled up with zeros. -/
def sextets : List UInt8 → List Sextet
  | [] => []
  | [a] => [sextet (a.toNat / 4), sextet (a.toNat % 4 * 16)]
  | [a, b] =>
    [sextet (a.toNat / 4), sextet (a.toNat % 4 * 16 + b.toNat / 16), sextet (b.toNat % 16 * 4)]
  | a :: b :: c :: rest =>
    sextet (a.toNat / 4) :: sextet (a.toNat % 4 * 16 + b.toNat / 16)
      :: sextet (b.toNat % 16 * 4 + c.toNat / 64) :: sextet (c.toNat % 64) :: sextets rest

/-- The bytes that groups of six bits fill. -/
def bytes : List Sextet → List UInt8
  | w :: x :: y :: z :: rest =>
    UInt8.ofNat (w * 4 + x / 16) :: UInt8.ofNat (x % 16 * 16 + y / 4)
      :: UInt8.ofNat (y % 4 * 64 + z) :: bytes rest
  | [w, x, y] => [UInt8.ofNat (w * 4 + x / 16), UInt8.ofNat (x % 16 * 16 + y / 4)]
  | [w, x] => [UInt8.ofNat (w * 4 + x / 16)]
  | _ => []

@[simp] theorem val_sextet (n : ℕ) : (sextet n : ℕ) = n % 64 := rfl

/-- A byte put together from its two parts. -/
theorem ofNat_eq {a : UInt8} {n : ℕ} (h : n = a.toNat) : UInt8.ofNat n = a := by
  rw [h, UInt8.ofNat_toNat]

@[simp] theorem bytes_sextets (bs : List UInt8) : bytes (sextets bs) = bs := by
  induction bs using sextets.induct with
  | case1 => rfl
  | case2 a =>
    have ha := a.toNat_lt
    simp only [sextets, bytes, val_sextet]
    rw [ofNat_eq (a := a) (by omega)]
  | case3 a b =>
    have ha := a.toNat_lt
    have hb := b.toNat_lt
    simp only [sextets, bytes, val_sextet]
    rw [ofNat_eq (a := a) (by omega), ofNat_eq (a := b) (by omega)]
  | case4 a b c rest ih =>
    have ha := a.toNat_lt
    have hb := b.toNat_lt
    have hc := c.toNat_lt
    simp only [sextets, bytes, val_sextet]
    rw [ofNat_eq (a := a) (by omega), ofNat_eq (a := b) (by omega), ofNat_eq (a := c) (by omega),
      ih]

/-- No byte string ends six bits after a multiple of four groups. -/
theorem length_sextets_mod (bs : List UInt8) : (sextets bs).length % 4 ≠ 1 := by
  induction bs using sextets.induct with
  | case1 => simp [sextets]
  | case2 a => simp [sextets]
  | case3 a b => simp [sextets]
  | case4 a b c rest ih =>
    simp only [sextets, List.length_cons]
    omega

/-! ## Alphabets -/

/-- The letter of six bits in the standard alphabet. -/
def letter (v : Sextet) : UInt16 :=
  if v.val < 26 then UInt16.ofNat (v.val + 65)
  else if v.val < 52 then UInt16.ofNat (v.val + 71)
  else if v.val < 62 then UInt16.ofNat (v.val - 4)
  else if v.val = 62 then 0x2B
  else 0x2F

/-- The six bits of a letter. -/
def value (u : UInt16) : Option Sextet :=
  if 0x41 ≤ u ∧ u ≤ 0x5A then some (sextet (u.toNat - 65))
  else if 0x61 ≤ u ∧ u ≤ 0x7A then some (sextet (u.toNat - 71))
  else if 0x30 ≤ u ∧ u ≤ 0x39 then some (sextet (u.toNat + 4))
  else if u = 0x2B then some 62
  else if u = 0x2F then some 63
  else none

/-- `+` and `/` become `-` and `_`. -/
def toUrl (u : UInt16) : UInt16 := if u = 0x2B then 0x2D else if u = 0x2F then 0x5F else u

/-- `-` and `_` become `+` and `/`. -/
def toStandard (u : UInt16) : UInt16 := if u = 0x2D then 0x2B else if u = 0x5F then 0x2F else u

/-- `=` -/
def pad : UInt16 := 0x3D

/-- Tab, line feed, form feed, carriage return and space. -/
def isBlank (u : UInt16) : Bool := u = 0x09 || u = 0x0A || u = 0x0C || u = 0x0D || u = 0x20

@[simp] theorem value_letter (v : Sextet) : value (letter v) = some v := by
  revert v
  decide

@[simp] theorem toStandard_toUrl_letter (v : Sextet) :
    toStandard (toUrl (letter v)) = letter v := by
  revert v
  decide

theorem letter_ne_pad (v : Sextet) : letter v ≠ pad := by
  revert v
  decide

theorem toUrl_letter_ne_pad (v : Sextet) : toUrl (letter v) ≠ pad := by
  revert v
  decide

@[simp] theorem isBlank_letter (v : Sextet) : isBlank (letter v) = false := by
  revert v
  decide

/-! ## Texts -/

/-- Fill up to a multiple of four letters. -/
def padded (text : List UInt16) : List UInt16 :=
  text ++ List.replicate ((4 - text.length % 4) % 4) pad

/-- Drop a last `=`. -/
def dropPad (text : List UInt16) : List UInt16 :=
  if text.getLast? = some pad then text.dropLast else text

/-- The forgiving reader of the web platform: blanks are passed over, the padding may be
missing, and a letter outside the alphabet or one letter too many is an error. -/
def forgiving (text : List UInt16) : Option (List UInt8) :=
  let data := text.filter fun u => !isBlank u
  let data := if data.length % 4 = 0 then dropPad (dropPad data) else data
  if data.length % 4 = 1 then none else (data.mapM value).map bytes

/-- The low byte of a unit. -/
def lowByte (u : UInt16) : UInt16 := u &&& 0xFF

/-- A reader of both alphabets that reads units by their low byte, ends at the first `=` and
passes over whatever belongs to neither alphabet. -/
def lenient (text : List UInt16) : List UInt8 :=
  bytes (((text.map lowByte).takeWhile (· ≠ pad)).filterMap fun u => value (toStandard u))

@[simp] theorem lowByte_toUrl_letter (v : Sextet) :
    lowByte (toUrl (letter v)) = toUrl (letter v) := by
  revert v
  decide

theorem dropPad_append_pad (text : List UInt16) : dropPad (text ++ [pad]) = text := by
  simp [dropPad]

theorem dropPad_of_notMem {text : List UInt16} (h : pad ∉ text) : dropPad text = text := by
  rw [dropPad, if_neg]
  intro hlast
  exact h (List.mem_of_getLast? hlast)

/-- The padding is recognised. -/
theorem dropPad_padded {text : List UInt16} (h : pad ∉ text) (hlength : text.length % 4 ≠ 1) :
    dropPad (dropPad (padded text)) = text := by
  have hcases : text.length % 4 = 0 ∨ text.length % 4 = 2 ∨ text.length % 4 = 3 := by omega
  unfold padded
  rcases hcases with hmod | hmod | hmod
  · simp [hmod, dropPad_of_notMem h]
  · have htwo : text ++ [pad, pad] = (text ++ [pad]) ++ [pad] := by simp
    simp only [hmod, Nat.reduceSub, Nat.reduceMod, List.replicate]
    rw [htwo, dropPad_append_pad, dropPad_append_pad]
  · simp only [hmod, Nat.reduceSub, Nat.reduceMod, List.replicate]
    rw [dropPad_append_pad, dropPad_of_notMem h]

theorem length_padded_mod (text : List UInt16) : (padded text).length % 4 = 0 := by
  rw [padded, List.length_append, List.length_replicate]
  omega

theorem mapM_value_letters (vs : List Sextet) : (vs.map letter).mapM value = some vs := by
  induction vs with
  | nil => rfl
  | cons v vs ih => simp [List.mapM_cons, ih]

theorem pad_notMem_letters (vs : List Sextet) : pad ∉ vs.map letter := by
  intro h
  obtain ⟨v, -, hv⟩ := List.mem_map.1 h
  exact letter_ne_pad v hv

/-- The forgiving reader gives back the bytes that were written with padding. -/
theorem forgiving_padded (bs : List UInt8) :
    forgiving (padded ((sextets bs).map letter)) = some bs := by
  have hblank : (padded ((sextets bs).map letter)).filter (fun u => !isBlank u)
      = padded ((sextets bs).map letter) := by
    rw [List.filter_eq_self]
    intro u hu
    rcases List.mem_append.1 hu with hu | hu
    · obtain ⟨v, -, rfl⟩ := List.mem_map.1 hu
      simp
    · rw [List.eq_of_mem_replicate hu]
      decide
  have hlength : ((sextets bs).map letter).length % 4 ≠ 1 := by
    rw [List.length_map]
    exact length_sextets_mod bs
  simp only [forgiving, hblank, length_padded_mod, if_true]
  rw [dropPad_padded (pad_notMem_letters _) hlength, if_neg hlength, mapM_value_letters,
    Option.map_some, bytes_sextets]

/-- The lenient reader gives back the bytes that were written in the URL alphabet. -/
theorem lenient_letters (bs : List UInt8) :
    lenient ((sextets bs).map fun v => toUrl (letter v)) = bs := by
  have hletters : ∀ vs : List Sextet,
      (((vs.map fun v => toUrl (letter v)).map lowByte).takeWhile (· ≠ pad)).filterMap
        (fun u => value (toStandard u)) = vs := by
    intro vs
    induction vs with
    | nil => rfl
    | cons v vs ih =>
      rw [List.map_cons, List.map_cons, lowByte_toUrl_letter,
        List.takeWhile_cons_of_pos (by simpa using toUrl_letter_ne_pad v),
        List.filterMap_cons_some (by rw [toStandard_toUrl_letter, value_letter]), ih]
  rw [lenient, hletters, bytes_sextets]

/-- The text in the URL alphabet determines the bytes. -/
theorem urlLetters_injective {bs cs : List UInt8}
    (h : (sextets bs).map (fun v => toUrl (letter v))
      = (sextets cs).map fun v => toUrl (letter v)) : bs = cs := by
  rw [← lenient_letters bs, h, lenient_letters]

/-- Dropping the padding of the text leaves its letters. -/
theorem rdropWhile_padded {text : List UInt16} (h : pad ∉ text) :
    (padded text).rdropWhile (· = pad) = text := by
  have hreplicate : ∀ n, (text ++ List.replicate n pad).rdropWhile (· = pad) = text := by
    intro n
    induction n with
    | zero =>
      rw [List.replicate_zero, List.append_nil, List.rdropWhile_eq_self_iff]
      intro hne heq
      exact h (of_decide_eq_true heq ▸ List.getLast_mem hne)
    | succ n ih =>
      rw [List.replicate_succ', ← List.append_assoc, List.rdropWhile_concat_pos _ _ _ (by simp), ih]
  exact hreplicate _

end Base64
