import SharedTsLibs.Lib.Chunks
import SharedTsLibs.Lib.JsArrays
import SharedTsLibs.Lib.JsRounding
import SharedTsLibs.Lib.Loops

/-!
# Chunked processing

`universal-ts-utils`: `chunk` cuts an array into chunks, `callChunked` cuts it in a loop of its
own and awaits a processor for each chunk.

* `chunk_eq`, `callChunked_eq` — both follow the same chunks when the size is at least one.
* `calls_isPrefix` — whatever becomes of the calls, they are the first of those with all chunks.
* `not_mem_callChunked` — when it is not, `callChunked` comes to no end.
* `coversArray_iff` — exactly when the array is covered.
-/

namespace SharedTsLibs.UniversalTsUtils.ChunkedProcessing

open JsNumber StateTransition

variable {α E : Type}

/-! ## The functions -/

section Functions

variable (rounding : Rounding) (array : JsArray α) (chunkSize : JsNumber)

/-- `array.length` -/
def arrayLength : JsNumber := finite array.elements.length

/-- `index + chunkSize` -/
def next (index : JsNumber) : JsNumber := rounded rounding (index + chunkSize)

structure ChunkState (α : Type) where
  index : JsNumber
  resIndex : ℕ
  result : List (Option (List α))

/-- A turn of `while (index < length)`. -/
def chunkStep (s : ChunkState α) : Option (ChunkState α) :=
  if s.index < arrayLength array then
    let index := next rounding chunkSize s.index
    some
      { index
        resIndex := s.resIndex + 1
        result := JsArray.writeAt s.result s.resIndex (array.slice s.index index) }
  else none

/-- What `chunk` gives, if its loop ends; an element of the result can be a hole. -/
def chunk : Part (Except JsArray.RangeError (List (Option (List α)))) :=
  if array.elements.length = 0 ∨ chunkSize < 1 then Part.some (.ok [])
  else
    match JsArray.newArray (rounded rounding (arrayLength array / chunkSize)).ceil with
    | .error err => Part.some (.error err)
    | .ok result =>
      (eval (chunkStep rounding array chunkSize) ⟨0, 0, result⟩).map fun s => .ok s.result

/-- What becomes of a call of the processor. -/
inductive Settlement (E : Type) where
  | pending
  | resolved
  | rejected (err : E)

/-- What `callChunked` is to do next, or how it has ended. -/
inductive Task (E : Type) where
  /-- `i < array.length` -/
  | test
  /-- `await processFn(arrayChunk)` -/
  | awaiting (settlement : Settlement E)
  | resolved
  | rejected (err : E)

structure State (α E : Type) where
  i : JsNumber
  /-- The chunks that the processor has been called with. -/
  calls : List (List α)
  task : Task E

/-- The next task; `processFn k arrayChunk` is what becomes of the call number `k`. -/
def step (processFn : ℕ → List α → Settlement E) (s : State α E) : Option (State α E) :=
  match s.task with
  | .test =>
    if s.i < arrayLength array then
      let arrayChunk := array.slice s.i (next rounding chunkSize s.i)
      some
        { s with
          calls := s.calls ++ [arrayChunk]
          task := .awaiting (processFn s.calls.length arrayChunk) }
    else some { s with task := .resolved }
  | .awaiting .resolved => some { s with i := next rounding chunkSize s.i, task := .test }
  | .awaiting (.rejected err) => some { s with task := .rejected err }
  | .awaiting .pending | .resolved | .rejected _ => none

/-- Where `callChunked` ends, or waits for ever; the array is `readonly` and stays as it is. -/
def callChunked (processFn : ℕ → List α → Settlement E) : Part (State α E) :=
  eval (step rounding array chunkSize processFn) ⟨0, [], .test⟩

end Functions

/-! ## Sizes of at least one -/

section Covering

variable {rounding : Rounding} {array : JsArray α} {m n : ℕ} {cs : List (List α)}

theorem finite_lt_arrayLength : finite n < arrayLength array ↔ n < array.elements.length := by
  rw [arrayLength, finite_lt_finite, Nat.cast_lt]

theorem lt_length_iff : n < array.elements.length ↔ array.elements.drop n ≠ [] := by
  rw [Ne, List.drop_eq_nil_iff, not_le]

theorem not_lt_arrayLength (h : array.elements.drop n = []) : ¬ finite n < arrayLength array :=
  mt finite_lt_arrayLength.1 (not_lt.2 (List.drop_eq_nil_iff.1 h))

/-- An index of the array other than zero is there only for a size within the longest array. -/
def Fits (array : JsArray α) (m n : ℕ) : Prop :=
  n < array.elements.length → n = 0 ∨ m ≤ 2 ^ 32

theorem fits_zero : Fits array m 0 := fun _ => .inl rfl

theorem fits_add : Fits array m (n + m) := by
  intro hlt
  have hlength := array.length_lt
  exact .inr (by omega)

/-- From an index of the array the next one is exact. -/
theorem next_eq (hm : rounding.round m = finite m) (hlt : n < array.elements.length)
    (hfits : Fits array m n) : next rounding (finite m) (finite n) = finite (n + m : ℕ) := by
  have hlength := array.length_lt
  show rounding.round (n + m) = _
  rcases hfits hlt with rfl | hm'
  · rw [Nat.cast_zero, zero_add, Nat.zero_add, hm]
  · have hle : n + m ≤ 2 ^ 53 := by omega
    rw [← Nat.cast_add, rounding.round_natCast hle]

/-! ### `chunk` -/

/-- A turn of the loop writes the next chunk behind those that have been written. -/
theorem chunkStep_eq (hm : rounding.round m = finite m) (hlt : n < array.elements.length)
    (hfits : Fits array m n) (done : List (List α)) (holes : ℕ) :
    chunkStep rounding array (finite m) ⟨finite n, done.length, JsArray.written done holes⟩ =
      some ⟨finite (n + m : ℕ), (done ++ [(array.elements.drop n).take m]).length,
        JsArray.written (done ++ [(array.elements.drop n).take m]) (holes - 1)⟩ := by
  rw [chunkStep, if_pos (finite_lt_arrayLength.2 hlt), next_eq hm hlt hfits]
  simp only [JsArray.slice_eq, JsArray.writeAt_written, List.length_append, List.length_singleton]

/-- The loop writes all chunks, one after the other. -/
theorem mem_eval_chunkStep (hm : rounding.round m = finite m) (hfits : Fits array m n)
    (h : Chunked m (array.elements.drop n) cs) (done : List (List α)) {holes : ℕ}
    (hholes : holes ≤ cs.length) :
    ∃ s ∈ eval (chunkStep rounding array (finite m))
      ⟨finite n, done.length, JsArray.written done holes⟩, s.result = (done ++ cs).map some := by
  -- along the chunks of what is left from the index on
  generalize hrest : array.elements.drop n = rest at h
  induction h generalizing n done holes with
  | nil =>
    refine ⟨_, Loops.mem_eval_of_stop (if_neg (not_lt_arrayLength hrest)), ?_⟩
    rw [Nat.le_zero.1 hholes, List.append_nil]
    exact JsArray.written_zero done
  | cons hne _ ih =>
    subst hrest
    have hturn := chunkStep_eq hm (lt_length_iff.2 hne) hfits done holes
    have hleft : holes - 1 ≤ _ := Nat.sub_le_of_le_add hholes
    obtain ⟨s, hs, hresult⟩ := ih fits_add _ hleft List.drop_drop.symm
    refine ⟨s, Loops.mem_eval_of_step hturn hs, ?_⟩
    rw [hresult, List.append_assoc, List.singleton_append]

/-- There are no more holes at first than chunks to come. -/
theorem exists_newArray (rounding : Rounding) (hpos : 1 ≤ m) (h : Chunked m array.elements cs) :
    ∃ holes ≤ cs.length,
      JsArray.newArray (rounded rounding (arrayLength array / finite m)).ceil =
        .ok (JsArray.written ([] : List (List α)) holes) := by
  have hlength := array.length_lt
  have hcs := h.length_le hpos
  have hm0 : (m : ℚ) ≠ 0 := Nat.cast_ne_zero.2 (by omega)
  have hle : (array.elements.length : ℚ) / m ≤ (cs.length : ℕ) := by
    rw [div_le_iff₀ (Nat.cast_pos.2 hpos)]
    exact_mod_cast h.length_le_mul
  have hexact : rounding.round (cs.length : ℕ) = finite (cs.length : ℕ) :=
    rounding.round_natCast (by omega)
  obtain ⟨r, hr, hnonneg, hrle⟩ := Rounding.exists_round_of_nonneg hexact (by positivity) hle
  have hceil : ((⌈r⌉.toNat : ℕ) : ℚ) = (⌈r⌉ : ℤ) := by
    exact_mod_cast Int.toNat_of_nonneg (Int.ceil_nonneg hnonneg)
  have hholes : ⌈r⌉.toNat ≤ cs.length := Int.toNat_le.2 (Int.ceil_le.2 hrle)
  refine ⟨⌈r⌉.toNat, hholes, ?_⟩
  rw [arrayLength, finite_div_finite hm0, rounded, hr, ceil, ← hceil]
  exact JsArray.newArray_eq (by omega)

/-- `chunk` gives the chunks of the array. -/
theorem chunk_eq (hm : rounding.round m = finite m) (hpos : 1 ≤ m)
    (h : Chunked m array.elements cs) : .ok (cs.map some) ∈ chunk rounding array (finite m) := by
  by_cases hempty : array.elements.length = 0
  · rw [List.length_eq_zero_iff.1 hempty] at h
    cases h with
    | nil => rw [chunk, if_pos (.inl hempty)]; exact Part.mem_some _
    | cons hne _ => exact absurd rfl hne
  · have hsize : ¬ finite m < 1 := by
      rw [ofNat_eq_finite, finite_lt_finite, not_lt]
      exact_mod_cast hpos
    obtain ⟨holes, hholes, hnew⟩ := exists_newArray rounding hpos h
    obtain ⟨s, hs, hresult⟩ := mem_eval_chunkStep hm fits_zero h [] hholes
    rw [chunk, if_neg (not_or.2 ⟨hempty, hsize⟩), hnew]
    exact Part.mem_map_iff _ |>.2 ⟨s, hs, congrArg Except.ok hresult⟩

/-! ### `callChunked` -/

/-- The calls of the processor with the chunks in turn, and how they end: the first call that
does not resolve is the last one. -/
def processed (processFn : ℕ → List α → Settlement E) :
    List (List α) → List (List α) → List (List α) × Task E
  | done, [] => (done, .resolved)
  | done, c :: cs =>
    match processFn done.length c with
    | .resolved => processed processFn (done ++ [c]) cs
    | .rejected err => (done ++ [c], .rejected err)
    | .pending => (done ++ [c], .awaiting .pending)

variable {processFn : ℕ → List α → Settlement E}

/-- A turn of the loop calls the processor with the next chunk. -/
theorem step_test (hm : rounding.round m = finite m) (hlt : n < array.elements.length)
    (hfits : Fits array m n) (done : List (List α)) :
    step rounding array (finite m) processFn ⟨finite n, done, .test⟩ =
      some ⟨finite n, done ++ [(array.elements.drop n).take m],
        .awaiting (processFn done.length ((array.elements.drop n).take m))⟩ := by
  show (if _ then _ else _) = _
  rw [if_pos (finite_lt_arrayLength.2 hlt), next_eq hm hlt hfits, JsArray.slice_eq]

/-- The loop calls the processor with all chunks in turn, as far as the calls resolve. -/
theorem mem_eval_step (hm : rounding.round m = finite m) (hfits : Fits array m n)
    (h : Chunked m (array.elements.drop n) cs) (done : List (List α)) :
    ∃ s ∈ eval (step rounding array (finite m) processFn) ⟨finite n, done, .test⟩,
      (s.calls, s.task) = processed processFn done cs := by
  generalize hrest : array.elements.drop n = rest at h
  induction h generalizing n done with
  | nil =>
    have hstep : step rounding array (finite m) processFn ⟨finite n, done, .test⟩ =
        some ⟨finite n, done, .resolved⟩ := if_neg (not_lt_arrayLength hrest)
    exact ⟨_, Loops.mem_eval_of_step hstep (Loops.mem_eval_of_stop rfl), rfl⟩
  | cons hne _ ih =>
    subst hrest
    have hlt := lt_length_iff.2 hne
    generalize hc : (array.elements.drop n).take m = c at ih ⊢
    have hcall : step rounding array (finite m) processFn ⟨finite n, done, .test⟩ =
        some ⟨finite n, done ++ [c], .awaiting (processFn done.length c)⟩ :=
      hc ▸ step_test hm hlt hfits done
    rw [processed]
    cases hsettlement : processFn done.length c with
    | resolved =>
      rw [hsettlement] at hcall
      obtain ⟨s, hs, hprocessed⟩ := ih fits_add _ List.drop_drop.symm
      refine ⟨s, Loops.mem_eval_of_step hcall (Loops.mem_eval_of_step ?_ hs), hprocessed⟩
      show some _ = _
      rw [next_eq hm hlt hfits]
    | rejected err =>
      rw [hsettlement] at hcall
      have hreject : step rounding array (finite m) processFn
          ⟨finite n, done ++ [c], .awaiting (.rejected err)⟩ =
            some ⟨finite n, done ++ [c], .rejected err⟩ := rfl
      have hstop := Loops.mem_eval_of_step hreject (Loops.mem_eval_of_stop rfl)
      exact ⟨_, Loops.mem_eval_of_step hcall hstop, rfl⟩
    | pending =>
      rw [hsettlement] at hcall
      exact ⟨_, Loops.mem_eval_of_step hcall (Loops.mem_eval_of_stop rfl), rfl⟩

/-- Where `callChunked` ends: the processor has been called with the chunks of the array. -/
theorem callChunked_eq (processFn : ℕ → List α → Settlement E)
    (hm : rounding.round m = finite m) (h : Chunked m array.elements cs) :
    ∃ s ∈ callChunked rounding array (finite m) processFn,
      (s.calls, s.task) = processed processFn [] cs :=
  mem_eval_step hm fits_zero h []

theorem processed_of_resolved (h : ∀ k c, processFn k c = .resolved) (done : List (List α)) :
    processed processFn done cs = (done ++ cs, .resolved) := by
  induction cs generalizing done with
  | nil => rw [processed, List.append_nil]
  | cons c cs ih =>
    rw [processed, h]
    show processed processFn (done ++ [c]) cs = _
    rw [ih, List.append_assoc, List.singleton_append]

theorem processed_isPrefix (processFn : ℕ → List α → Settlement E) (done : List (List α)) :
    (processed processFn done cs).1 <+: done ++ cs := by
  induction cs generalizing done with
  | nil => exact List.prefix_append _ _
  | cons c cs ih =>
    have hsnoc : done ++ c :: cs = done ++ [c] ++ cs := List.append_cons done c cs
    rw [processed, hsnoc]
    split
    · exact ih (done ++ [c])
    · exact List.prefix_append _ _
    · exact List.prefix_append _ _

/-- A call that does not resolve leaves out chunks at the end only. -/
theorem calls_isPrefix (hm : rounding.round m = finite m) (h : Chunked m array.elements cs)
    {s : State α E} (hs : s ∈ callChunked rounding array (finite m) processFn) :
    s.calls <+: cs := by
  obtain ⟨s', hs', hprocessed⟩ := callChunked_eq processFn hm h
  have hcalls : s'.calls = (processed processFn [] cs).1 := congrArg Prod.fst hprocessed
  rw [Part.mem_unique hs hs', hcalls]
  exact processed_isPrefix processFn []

end Covering

/-! ## Sizes below one -/

section Stuck

variable {rounding : Rounding} {array : JsArray α} {size : ℚ} {i : JsNumber}

/-- A size that is not positive does not lead out of the numbers that are not positive. -/
theorem next_nonpos (hsize : size ≤ 0) (hi : i ≤ 0) : next rounding (finite size) i ≤ 0 := by
  cases i with
  | finite q =>
    have hq : q ≤ 0 := finite_le_finite.1 hi
    have hle := rounding.round_mono (show q + size ≤ 0 by linarith)
    rwa [rounding.round_zero] at hle
  | infinity negative =>
    show rounded rounding (infinity negative + finite size) ≤ 0
    rwa [infinity_add_finite]
  | nan => exact absurd hi not_nan_le

/-- A processor that resolves is called again and again. -/
theorem not_mem_callChunked (hsize : size ≤ 0) (hne : array.elements ≠ [])
    {processFn : ℕ → List α → Settlement E} (hresolved : ∀ k c, processFn k c = .resolved)
    (s : State α E) : s ∉ callChunked rounding array (finite size) processFn := by
  -- the index stays where the test is passed
  refine Loops.not_mem_eval
    (I := fun s => s.i ≤ 0 ∧ (s.task = .test ∨ s.task = .awaiting .resolved)) ?_
    ⟨JsNumber.le_refl (by simp [ofNat_eq_finite]), .inl rfl⟩ s
  rintro ⟨i, calls, task⟩ ⟨hi, rfl | rfl⟩
  · have hpos : 0 < arrayLength array := by
      rw [ofNat_eq_finite, finite_lt_arrayLength]
      exact List.length_pos_iff.2 hne
    refine ⟨_, if_pos (lt_of_le_of_lt hi hpos), hi, .inr ?_⟩
    rw [hresolved]
  · exact ⟨_, rfl, next_nonpos hsize hi, .inl rfl⟩

/-- `chunk` gives no chunks. -/
theorem chunk_of_lt_one (h : array.elements = [] ∨ size < 1) :
    .ok [] ∈ chunk rounding array (finite size) := by
  have hguard : array.elements.length = 0 ∨ finite size < 1 := by
    rw [List.length_eq_zero_iff, ofNat_eq_finite, finite_lt_finite, Nat.cast_one]
    exact h
  rw [chunk, if_pos hguard]
  exact Part.mem_some _

/-- For an empty array the first test fails. -/
theorem callChunked_of_empty (hempty : array.elements = []) {chunkSize : JsNumber}
    {processFn : ℕ → List α → Settlement E} :
    ⟨0, [], .resolved⟩ ∈ callChunked rounding array chunkSize processFn := by
  have hdrop : array.elements.drop 0 = [] := hempty
  have hstep : step rounding array chunkSize processFn ⟨0, [], .test⟩ =
      some ⟨0, [], .resolved⟩ := if_neg (not_lt_arrayLength hdrop)
  exact Loops.mem_eval_of_step hstep (Loops.mem_eval_of_stop rfl)

end Stuck

/-! ## Exactly when the array is covered -/

/-- An integer that the runtime has. -/
structure WholeNumber (rounding : Rounding) where
  value : ℤ
  round_eq : rounding.round value = finite value

variable {rounding : Rounding}

/-- `callChunked` ends after calls with the chunks that `chunk` gives, whose lengths are bounded
by a size of at least one and which are the array when they are put together. -/
def CoversArray (E : Type) (array : JsArray α) (size : WholeNumber rounding) : Prop :=
  ∃ chunks : List (List α),
    .ok (chunks.map some) ∈ chunk rounding array (finite size.value) ∧
    (∀ processFn : ℕ → List α → Settlement E, (∀ k c, processFn k c = .resolved) →
      ∃ s ∈ callChunked rounding array (finite size.value) processFn,
        s.calls = chunks ∧ s.task = .resolved) ∧
    (1 ≤ size.value →
      chunks.flatten = array.elements ∧ ∀ c ∈ chunks, 1 ≤ c.length ∧ (c.length : ℤ) ≤ size.value)

theorem coversArray_of_one_le {array : JsArray α} {size : WholeNumber rounding}
    (hsize : 1 ≤ size.value) : CoversArray E array size := by
  obtain ⟨m, hvalue⟩ := Int.eq_ofNat_of_zero_le (show 0 ≤ size.value by omega)
  have hpos : 1 ≤ m := by omega
  have hm : rounding.round m = finite m := by
    have hround := size.round_eq
    rwa [hvalue, Int.cast_natCast] at hround
  obtain ⟨cs, hcs⟩ := exists_chunked hpos array.elements
  rw [CoversArray, hvalue, Int.cast_natCast]
  refine ⟨cs, chunk_eq hm hpos hcs, ?_, fun _ => ⟨hcs.flatten_eq, ?_⟩⟩
  · intro processFn hresolved
    obtain ⟨s, hs, hprocessed⟩ := callChunked_eq processFn hm hcs
    rw [processed_of_resolved hresolved, List.nil_append, Prod.mk.injEq] at hprocessed
    exact ⟨s, hs, hprocessed⟩
  · intro c hc
    obtain ⟨hlower, hupper⟩ := hcs.length_bounds hpos c hc
    exact ⟨hlower, Int.ofNat_le.2 hupper⟩

theorem coversArray_of_empty {array : JsArray α} {size : WholeNumber rounding}
    (hempty : array.elements = []) : CoversArray E array size := by
  refine ⟨[], chunk_of_lt_one (.inl hempty), ?_, fun _ => ⟨hempty.symm, by simp⟩⟩
  intro processFn _
  exact ⟨_, callChunked_of_empty hempty, rfl, rfl⟩

/-- The array is covered exactly when it is empty or the size is at least one. -/
theorem coversArray_iff (array : JsArray α) (size : WholeNumber rounding) :
    CoversArray E array size ↔ array.elements = [] ∨ 1 ≤ size.value := by
  constructor
  · rintro ⟨chunks, -, hends, -⟩
    by_contra hcond
    obtain ⟨hne, hsize⟩ := not_or.1 hcond
    have hnonpos : (size.value : ℚ) ≤ 0 := by
      exact_mod_cast (show size.value ≤ 0 by omega)
    obtain ⟨s, hs, -⟩ := hends (fun _ _ => .resolved) fun _ _ => rfl
    exact not_mem_callChunked hnonpos hne (fun _ _ => rfl) s hs
  · rintro (hempty | hsize)
    · exact coversArray_of_empty hempty
    · exact coversArray_of_one_le hsize

/-- With the size zero there are no chunks of `[7]`, and `callChunked` never ends. -/
theorem not_coversArray_zero :
    .ok [] ∈ chunk overflowing (⟨[7], by decide⟩ : JsArray ℕ) 0 ∧
    (∀ s : State ℕ Unit, s ∉ callChunked overflowing ⟨[7], by decide⟩ 0 fun _ _ => .resolved) ∧
    ¬ CoversArray Unit (⟨[7], by decide⟩ : JsArray ℕ)
      (⟨0, overflowing.round_zero⟩ : WholeNumber overflowing) := by
  have hstuck : ∀ s : State ℕ Unit,
      s ∉ callChunked overflowing ⟨[7], by decide⟩ 0 fun _ _ => .resolved :=
    not_mem_callChunked le_rfl (List.cons_ne_nil 7 []) fun _ _ => rfl
  refine ⟨chunk_of_lt_one (.inr zero_lt_one), hstuck, ?_⟩
  rintro ⟨chunks, -, hends, -⟩
  obtain ⟨s, hs, -⟩ := hends (fun _ _ => .resolved) fun _ _ => rfl
  exact hstuck s hs

end SharedTsLibs.UniversalTsUtils.ChunkedProcessing
