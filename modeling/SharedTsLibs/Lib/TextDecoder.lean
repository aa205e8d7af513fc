import SharedTsLibs.Lib.Transducer

/-!
# The streaming UTF-8 decoder

`TextDecoder` with its defaults, called with `{ stream: true }`: the decoder of
the Encoding standard, one byte at a time, with a replacement character for each
ill-formed sequence and a leading byte order mark left out.  A sequence cut off
by the end of a call stays in the state, so that the decoder is a `Transducer`.

* `State.step`, `utf8` — the decoder.
* `utf8_ascii` — ASCII bytes are read one by one.
* `utf8_encodeChar`, `utf8_encode` — the bytes of a character, and of a text, are read as
  that character, and that text.
-/

namespace TextDecoder

/-- Where the decoder stands between two bytes. -/
structure State where
  codePoint : ℕ := 0
  bytesSeen : ℕ := 0
  bytesNeeded : ℕ := 0
  lowerBoundary : ℕ := 0x80
  upperBoundary : ℕ := 0xBF
  bomSeen : Bool := false

/-- Between two characters. -/
def State.reset (s : State) : State := { bomSeen := s.bomSeen }

/-- Write a character, unless it is the byte order mark at the very start. -/
def State.emit (s : State) (c : Char) : State × List Char :=
  ({ s with bomSeen := true }, if !s.bomSeen && c == '\ufeff' then [] else [c])

/-- The first byte of a sequence. -/
def State.lead (s : State) (b : ℕ) : State × List Char :=
  if b ≤ 0x7F then s.emit (Char.ofNat b)
  else if 0xC2 ≤ b ∧ b ≤ 0xDF then ({ s with bytesNeeded := 1, codePoint := b % 0x20 }, [])
  else if 0xE0 ≤ b ∧ b ≤ 0xEF then
    ({ s with
      bytesNeeded := 2
      codePoint := b % 0x10
      lowerBoundary := if b = 0xE0 then 0xA0 else s.lowerBoundary
      upperBoundary := if b = 0xED then 0x9F else s.upperBoundary }, [])
  else if 0xF0 ≤ b ∧ b ≤ 0xF4 then
    ({ s with
      bytesNeeded := 3
      codePoint := b % 0x08
      lowerBoundary := if b = 0xF0 then 0x90 else s.lowerBoundary
      upperBoundary := if b = 0xF4 then 0x8F else s.upperBoundary }, [])
  else s.emit '\ufffd'

/-- A byte inside a sequence that it can continue. -/
def State.trail (s : State) (b : ℕ) : State × List Char :=
  let codePoint := s.codePoint * 0x40 + b % 0x40
  if s.bytesSeen + 1 = s.bytesNeeded then s.reset.emit (Char.ofNat codePoint)
  else ({ s with
    lowerBoundary := 0x80
    upperBoundary := 0xBF
    codePoint := codePoint
    bytesSeen := s.bytesSeen + 1 }, [])

/-- One byte.  A byte that cannot continue the sequence ends it with a replacement
character and is read again as a first byte. -/
def State.step (s : State) (byte : UInt8) : State × List Char :=
  let b := byte.toNat
  if s.bytesNeeded = 0 then s.lead b
  else if b < s.lowerBoundary ∨ s.upperBoundary < b then
    let (s', replaced) := s.reset.emit '\ufffd'
    let (s'', cs) := s'.lead b
    (s'', replaced ++ cs)
  else s.trail b

/-- `decoder.decode(value, { stream: true })`. -/
def utf8 : Transducer State UInt8 Char := Transducer.ofStep State.step

/-- An ASCII byte between two characters is written as it is. -/
theorem step_ascii {s : State} {b : UInt8} (hs : s.bytesNeeded = 0) (hb : b.toNat ≤ 0x7F) :
    s.step b = ({ s with bomSeen := true }, [Char.ofNat b.toNat]) := by
  have hbom : Char.ofNat b.toNat ≠ '\ufeff' := by
    intro h
    have hvalid : b.toNat.isValidChar := Or.inl (by omega)
    have hchar : (Char.ofNat b.toNat).toNat = b.toNat := by
      rw [Char.ofNat, dif_pos hvalid]
      rfl
    have hbom : (Char.ofNat b.toNat).toNat = 0xFEFF := by rw [h]; rfl
    omega
  simp [State.step, State.lead, State.emit, hs, hb, hbom]

/-- ASCII text is decoded byte by byte. -/
theorem utf8_ascii {s : State} (hs : s.bytesNeeded = 0) {bytes : List UInt8}
    (hb : ∀ b ∈ bytes, b.toNat ≤ 0x7F) :
    (utf8.feed s bytes).2 = bytes.map fun b => Char.ofNat b.toNat := by
  induction bytes generalizing s with
  | nil => rfl
  | cons b bytes ih =>
    have hrest := ih (s := { s with bomSeen := true }) hs
      fun c hc => hb c (List.mem_cons_of_mem b hc)
    rw [utf8, Transducer.ofStep_feed_cons, step_ascii hs (hb b List.mem_cons_self), List.map_cons]
    rw [utf8] at hrest
    simp only [hrest, List.singleton_append]

example : (utf8.feed {} [0xEF, 0xBB, 0xBF, 0x61, 0xC3, 0xA9, 0xE2, 0x82, 0x61, 0xFF]).2
    = ['a', 'é', '\ufffd', 'a', '\ufffd'] := by decide

/-! ## Reading what was encoded -/

/-- Between two characters, past the place of a byte order mark. -/
def ready : State := { bomSeen := true }

/-- Inside a sequence. -/
def inside (needed seen codePoint : ℕ) : State :=
  { bytesNeeded := needed, bytesSeen := seen, codePoint := codePoint, bomSeen := true }

theorem toNat_byte {n : ℕ} (h : n < 256) : (UInt8.ofNat n).toNat = n := by
  rw [UInt8.toNat_ofNat', Nat.mod_eq_of_lt h]

/-- A first byte that writes nothing. -/
theorem feed_lead {n : ℕ} {s : State} (h : n < 256) (hlead : ready.lead n = (s, []))
    (bs : List UInt8) : utf8.feed ready (UInt8.ofNat n :: bs) = utf8.feed s bs := by
  have hstep : ready.step (UInt8.ofNat n) = (s, []) := by
    have hbetween : ready.bytesNeeded = 0 := rfl
    rw [State.step, if_pos hbetween, toNat_byte h, hlead]
  rw [utf8, Transducer.ofStep_feed_cons, hstep]
  rfl

/-- The bytes after the first, all but the last one. -/
theorem feed_trail {s : State} {n : ℕ} (hbom : s.bomSeen = true)
    (h : s.bytesSeen + 1 < s.bytesNeeded)
    (hn : s.lowerBoundary ≤ n % 64 + 128 ∧ n % 64 + 128 ≤ s.upperBoundary) (bs : List UInt8) :
    utf8.feed s (UInt8.ofNat (n % 64 + 128) :: bs)
      = utf8.feed (inside s.bytesNeeded (s.bytesSeen + 1) (s.codePoint * 64 + n % 64)) bs := by
  have hbyte : (UInt8.ofNat (n % 64 + 128)).toNat = n % 64 + 128 := toNat_byte (by omega)
  have hmod : (n % 64 + 128) % 64 = n % 64 := by omega
  have hstep : s.step (UInt8.ofNat (n % 64 + 128)) =
      (inside s.bytesNeeded (s.bytesSeen + 1) (s.codePoint * 64 + n % 64), []) := by
    simp only [State.step, State.trail, hbyte]
    rw [if_neg (by omega), if_neg (by omega), if_neg (by omega), hmod, hbom]
    rfl
  rw [utf8, Transducer.ofStep_feed_cons, hstep]
  rfl

/-- The last byte of a sequence completes its character. -/
theorem feed_last {s : State} {n : ℕ} (hbom : s.bomSeen = true)
    (h : s.bytesSeen + 1 = s.bytesNeeded)
    (hn : s.lowerBoundary ≤ n % 64 + 128 ∧ n % 64 + 128 ≤ s.upperBoundary) :
    utf8.feed s [UInt8.ofNat (n % 64 + 128)]
      = (ready, [Char.ofNat (s.codePoint * 64 + n % 64)]) := by
  have hbyte : (UInt8.ofNat (n % 64 + 128)).toNat = n % 64 + 128 := toNat_byte (by omega)
  have hmod : (n % 64 + 128) % 64 = n % 64 := by omega
  have hstep : s.step (UInt8.ofNat (n % 64 + 128)) =
      (ready, [Char.ofNat (s.codePoint * 64 + n % 64)]) := by
    simp only [State.step, State.trail, hbyte]
    rw [if_neg (by omega), if_neg (by omega), if_pos h, hmod]
    simp [State.emit, State.reset, hbom, ready]
  rw [utf8, Transducer.ofStep_feed_cons, hstep]
  rfl

/-- The decoder reads the bytes of a character as that character. -/
theorem utf8_encodeChar (c : Char) : utf8.feed ready (String.utf8EncodeChar c) = (ready, [c]) := by
  have hc : c.toNat < 0xD800 ∨ 0xDFFF < c.toNat ∧ c.toNat < 0x110000 := c.valid
  have hval : c.val.toNat = c.toNat := rfl
  unfold String.utf8EncodeChar
  simp only [hval]
  split
  · -- one byte
    rw [utf8, Transducer.ofStep_feed_cons, Transducer.ofStep_feed_nil,
      step_ascii rfl (by rw [toNat_byte] <;> omega), toNat_byte (by omega), Char.ofNat_toNat]
    rfl
  split
  · -- two bytes
    have hlead : ready.lead (c.toNat / 64 % 32 + 192) = (inside 1 0 (c.toNat / 64), []) := by
      have hmod : (c.toNat / 64 % 32 + 192) % 32 = c.toNat / 64 := by omega
      rw [State.lead, if_neg (by omega), if_pos (by omega), hmod]
      rfl
    have hchar : c.toNat / 64 * 64 + c.toNat % 64 = c.toNat := by omega
    rw [feed_lead (by omega) hlead, feed_last rfl rfl (by simp only [inside]; omega)]
    simp only [inside, hchar, Char.ofNat_toNat]
  split
  · -- three bytes
    have hlead : ready.lead (c.toNat / 4096 % 16 + 224) =
        ({ inside 2 0 (c.toNat / 4096) with
          lowerBoundary := if c.toNat / 4096 = 0 then 0xA0 else 0x80
          upperBoundary := if c.toNat / 4096 = 13 then 0x9F else 0xBF }, []) := by
      have hmod : (c.toNat / 4096 % 16 + 224) % 16 = c.toNat / 4096 := by omega
      have hfirst : c.toNat / 4096 % 16 = c.toNat / 4096 := by omega
      rw [State.lead, if_neg (by omega), if_neg (by omega), if_pos (by omega), hmod, hfirst]
      simp [inside, ready]
    have hchar : (c.toNat / 4096 * 64 + c.toNat / 64 % 64) * 64 + c.toNat % 64 = c.toNat := by omega
    rw [feed_lead (by omega) hlead,
      feed_trail rfl (Nat.lt_add_one 1) (by dsimp only; split <;> split <;> omega),
      feed_last rfl rfl (by simp only [inside]; omega)]
    simp only [inside, hchar, Char.ofNat_toNat]
  · -- four bytes
    have hlead : ready.lead (c.toNat / 262144 % 8 + 240) =
        ({ inside 3 0 (c.toNat / 262144) with
          lowerBoundary := if c.toNat / 262144 = 0 then 0x90 else 0x80
          upperBoundary := if c.toNat / 262144 = 4 then 0x8F else 0xBF }, []) := by
      have hmod : (c.toNat / 262144 % 8 + 240) % 8 = c.toNat / 262144 := by omega
      have hfirst : c.toNat / 262144 % 8 = c.toNat / 262144 := by omega
      rw [State.lead, if_neg (by omega), if_neg (by omega), if_neg (by omega), if_pos (by omega),
        hmod, hfirst]
      simp [inside, ready]
    have hchar : ((c.toNat / 262144 * 64 + c.toNat / 4096 % 64) * 64 + c.toNat / 64 % 64) * 64
        + c.toNat % 64 = c.toNat := by omega
    rw [feed_lead (by omega) hlead,
      feed_trail rfl (by simp only [inside]; omega) (by dsimp only; split <;> split <;> omega),
      feed_trail rfl (Nat.lt_add_one 2) (by simp only [inside]; omega),
      feed_last rfl rfl (by simp only [inside]; omega)]
    simp only [inside, hchar, Char.ofNat_toNat]

/-- The decoder reads the bytes of a text as that text. -/
theorem utf8_encode (text : List Char) :
    utf8.feed ready (text.flatMap String.utf8EncodeChar) = (ready, text) := by
  induction text with
  | nil => rfl
  | cons c text ih =>
    rw [List.flatMap_cons, utf8.feed_append, utf8_encodeChar, ih, List.singleton_append]

/-- From the start on, where the text does not begin with a byte order mark. -/
theorem utf8_encode_cons {c : Char} (hc : c.toNat ≤ 0x7F) (text : List Char) :
    utf8.feed {} ((c :: text).flatMap String.utf8EncodeChar) = (ready, c :: text) := by
  have hval : c.val.toNat = c.toNat := rfl
  have hbytes : String.utf8EncodeChar c = [UInt8.ofNat c.toNat] := by
    simp only [String.utf8EncodeChar, hval]
    rw [if_pos hc]
  have hbyte : (UInt8.ofNat c.toNat).toNat = c.toNat := toNat_byte (by omega)
  have hstep : State.step {} (UInt8.ofNat c.toNat) = (ready, [c]) := by
    rw [step_ascii rfl (by omega), hbyte, Char.ofNat_toNat]
    rfl
  have hrest := utf8_encode text
  rw [utf8] at hrest
  rw [List.flatMap_cons, hbytes, List.singleton_append, utf8, Transducer.ofStep_feed_cons, hstep,
    hrest, List.singleton_append]

end TextDecoder
