import SharedTsLibs.Lib.Fallible
import SharedTsLibs.Lib.JsonText
import SharedTsLibs.Lib.RegularText
import Mathlib.Data.List.Infix

/-!
# Names of topics and queues

`aws-config`: `validateTopicsConfig` and `validateQueueConfig` check the names of topics and
queues against the conventions.

* `RegExpRuntime` — what `new RegExp` makes of a pattern.
* `TOPIC_NAME_REGEX`, `QUEUE_NAME_REGEX`, `validateQueueConfig`, `validateTopicsConfig` — the
  functions.
* `NameKind.Suffix`, `NameOk` — the grammar of the names.
* `test_expression` — the expressions match the suffixes of the grammar.
* `grammarLaw_iff` — the functions accept the grammar exactly for the projects that say the
  same as a pattern and as a text.
-/

namespace SharedTsLibs.AwsConfig

open RegularExpression

/-! ## Expressions made at run time -/

/-- `^` -/
def caret : UInt16 := 0x5E

/-- `^$\.*+?()[]{}|`, the characters with a meaning of their own in a pattern. -/
def syntaxCharacters : JsString :=
  [caret, 0x24, 0x5C, 0x2E, 0x2A, 0x2B, 0x3F, 0x28, 0x29, 0x5B, 0x5D, 0x7B, 0x7D, 0x7C]

/-- `new RegExp`: the place and the length of the first match in a text, nothing where the
pattern is not an expression. -/
structure RegExpRuntime where
  compile : JsString → Option (JsString → Option (ℕ × ℕ))
  /-- Ordinary characters behind `^` stand for themselves. -/
  compile_plain : ∀ s : JsString, (∀ u ∈ s, u ∉ syntaxCharacters) → compile (caret :: s)
    = some fun text => if s.isPrefixOf text then some (0, s.length) else none

/-- `text.replace(new RegExp(pattern), '')` -/
def RegExpRuntime.remove (runtime : RegExpRuntime) (pattern text : JsString) :
    Option JsString :=
  (runtime.compile pattern).map fun find =>
    match find text with
    | some (start, length) => text.take start ++ text.drop (start + length)
    | none => text

/-! ## The functions -/

def MAX_QUEUE_NAME_LENGTH : ℕ := 64

def MAX_TOPIC_NAME_LENGTH : ℕ := 246

/-- `[-_]` -/
def separators : JsString := [0x2D, 0x5F]

/-- `[a-z]` -/
def letters : JsString := (List.range 26).map fun i => UInt16.ofNat (0x61 + i)

def hyphen : UInt16 := 0x2D

def underscore : UInt16 := 0x5F

/-- `[a-z]+(_[a-z]+)*` -/
def words : RegularExpression UInt16 := separated underscore (oneOrMore (oneOf letters))

/-- `/^[-_][a-z]+(_[a-z]+)*$/` -/
def TOPIC_NAME_REGEX : RegularExpression UInt16 := oneOf separators * words

/-- `/^[-_][a-z]+(_[a-z]+)*(?:-[a-z]+(_[a-z]+)*(?:-[a-z]+(_[a-z]+)*)?)?$/` -/
def QUEUE_NAME_REGEX : RegularExpression UInt16 :=
  oneOf separators *
    (words * optional (char hyphen * (words * optional (char hyphen * words))))

inductive NameKind where
  | topic
  | queue
  deriving DecidableEq

namespace NameKind

def maxLength : NameKind → ℕ
  | topic => MAX_TOPIC_NAME_LENGTH
  | queue => MAX_QUEUE_NAME_LENGTH

def expression : NameKind → RegularExpression UInt16
  | topic => TOPIC_NAME_REGEX
  | queue => QUEUE_NAME_REGEX

def label : NameKind → JsString
  | topic => JsString.ofChars "topic".toList
  | queue => JsString.ofChars "queue".toList

/-- The label at the beginning of a sentence. -/
def capitalLabel : NameKind → JsString
  | topic => JsString.ofChars "Topic".toList
  | queue => JsString.ofChars "Queue".toList

end NameKind

inductive NamingError where
  | tooLong (kind : NameKind) (name : JsString)
  | outsideProject (kind : NameKind) (project name : JsString)
  | invalid (kind : NameKind) (name : JsString)
  deriving DecidableEq

def NamingError.message : NamingError → JsString
  | tooLong kind name =>
    kind.capitalLabel ++ JsString.ofChars " name too long: ".toList ++ name
      ++ JsString.ofChars ". Max allowed length is ".toList ++ decimalDigits kind.maxLength
      ++ JsString.ofChars ", received ".toList ++ decimalDigits name.length
  | outsideProject kind project name =>
    kind.capitalLabel ++ JsString.ofChars " name must start with project name '".toList
      ++ project ++ JsString.ofChars "': ".toList ++ name
  | invalid kind name =>
    JsString.ofChars "Invalid ".toList ++ kind.label ++ JsString.ofChars " name: ".toList ++ name

inductive Thrown where
  | naming (error : NamingError)
  /-- By `new RegExp`. -/
  | syntaxError
  deriving DecidableEq

/-- What is checked about one name; about an external one, only its length. -/
def validateName (runtime : RegExpRuntime) (kind : NameKind) (project name : JsString)
    (isExternal : Bool) : Except Thrown Unit :=
  if kind.maxLength < name.length then .error (.naming (.tooLong kind name))
  else if isExternal then .ok ()
  else if project.isPrefixOf name then
    match runtime.remove (caret :: project) name with
    | none => .error .syntaxError
    | some nameWithoutProjectPrefix =>
      if kind.expression.rmatch nameWithoutProjectPrefix then .ok ()
      else .error (.naming (.invalid kind name))
  else .error (.naming (.outsideProject kind project name))

structure QueueConfig where
  queueName : JsString
  isExternal : Bool

structure TopicConfig where
  topicName : JsString
  isExternal : Bool
  /-- The queues under their keys. -/
  queues : List (JsString × QueueConfig)

def validateQueueConfig (runtime : RegExpRuntime) (queueConfigs : List QueueConfig)
    (project : JsString) : Except Thrown Unit :=
  queueConfigs.forM fun queue =>
    validateName runtime .queue project queue.queueName queue.isExternal

def validateTopicsConfig (runtime : RegExpRuntime) (topicsConfig : List TopicConfig)
    (project : JsString) : Except Thrown Unit :=
  topicsConfig.forM fun topic => do
    validateName runtime .topic project topic.topicName topic.isExternal
    validateQueueConfig runtime (topic.queues.map Prod.snd) project

/-! ## The grammar -/

/-- One or more lower-case letters. -/
def Word (s : JsString) : Prop := s ≠ [] ∧ ∀ u ∈ s, 0x61 ≤ u.toNat ∧ u.toNat ≤ 0x7A

/-- Words joined by underscores. -/
def Words (s : JsString) : Prop :=
  ∃ ws : List JsString, ws ≠ [] ∧ (∀ w ∈ ws, Word w) ∧ s = [underscore].intercalate ws

/-- At least one part, and at most `n`, joined by hyphens. -/
def Parts (n : ℕ) (s : JsString) : Prop :=
  ∃ ps : List JsString, ps ≠ [] ∧ ps.length ≤ n ∧ (∀ p ∈ ps, Words p) ∧
    s = [hyphen].intercalate ps

/-- How many parts joined by hyphens a name has behind the project. -/
def NameKind.maxParts : NameKind → ℕ
  | topic => 1
  | queue => 3

/-- What follows the project in a name: a separator, and then the parts. -/
def NameKind.Suffix (kind : NameKind) (s : JsString) : Prop :=
  ∃ u rest, s = u :: rest ∧ (u = hyphen ∨ u = underscore) ∧ Parts kind.maxParts rest

/-- A name that follows the conventions. -/
def NameOk (kind : NameKind) (project name : JsString) (isExternal : Bool) : Prop :=
  name.length ≤ kind.maxLength ∧
    (isExternal = true ∨ ∃ rest, name = project ++ rest ∧ kind.Suffix rest)

def QueueConfig.Ok (project : JsString) (queue : QueueConfig) : Prop :=
  NameOk .queue project queue.queueName queue.isExternal

def TopicConfig.Ok (project : JsString) (topic : TopicConfig) : Prop :=
  NameOk .topic project topic.topicName topic.isExternal ∧
    ∀ queue ∈ topic.queues.map Prod.snd, queue.Ok project

/-! ## What the expressions match -/

theorem mem_letters {u : UInt16} : u ∈ letters ↔ 0x61 ≤ u.toNat ∧ u.toNat ≤ 0x7A := by
  rw [letters, List.mem_map]
  constructor
  · rintro ⟨i, hi, rfl⟩
    rw [List.mem_range] at hi
    rw [JsString.toNat_unit (by omega)]
    omega
  · rintro ⟨hlow, hhigh⟩
    refine ⟨u.toNat - 0x61, List.mem_range.2 (by omega), ?_⟩
    exact JsString.unit_eq (by omega)

theorem mem_words {s : JsString} : s ∈ words.matches' ↔ Words s := by
  rw [words, mem_separated]
  simp only [mem_oneOrMore_oneOf, mem_letters]
  rfl

theorem parts_one {s : JsString} : Parts 1 s ↔ Words s := by
  constructor
  · rintro ⟨ps, hne, hlength, hall, rfl⟩
    obtain ⟨p, rfl⟩ := List.length_eq_one_iff.1
      (le_antisymm hlength (List.length_pos_iff.2 hne))
    rw [List.intercalate_singleton]
    exact hall p (List.mem_singleton_self p)
  · intro hs
    exact ⟨[s], List.cons_ne_nil _ _, le_rfl, by simpa using hs,
      (List.intercalate_singleton).symm⟩

/-- A list of parts is one part, or one part before a shorter list. -/
theorem parts_succ {n : ℕ} {s : JsString} : Parts (n + 2) s ↔
    Words s ∨ ∃ p, Words p ∧ ∃ rest, Parts (n + 1) rest ∧ s = p ++ hyphen :: rest := by
  constructor
  · rintro ⟨ps, hne, hlength, hall, rfl⟩
    match ps with
    | [] => exact absurd rfl hne
    | [p] =>
      rw [List.intercalate_singleton]
      exact Or.inl (hall p (List.mem_singleton_self p))
    | p :: q :: ps =>
      obtain ⟨hp, hrest⟩ := List.forall_mem_cons.1 hall
      refine Or.inr ⟨p, hp, _, ⟨q :: ps, List.cons_ne_nil _ _, ?_, hrest, rfl⟩, ?_⟩
      · simpa using hlength
      · rw [List.intercalate_cons_cons]
        simp
  · rintro (hs | ⟨p, hp, _, ⟨ps, hne, hlength, hall, rfl⟩, rfl⟩)
    · exact ⟨[s], List.cons_ne_nil _ _, by simp, by simpa using hs,
        (List.intercalate_singleton).symm⟩
    · obtain ⟨q, ps, rfl⟩ := List.exists_cons_of_ne_nil hne
      refine ⟨p :: q :: ps, List.cons_ne_nil _ _, ?_, List.forall_mem_cons.2 ⟨hp, hall⟩, ?_⟩
      · simpa using hlength
      · rw [List.intercalate_cons_cons]
        simp

theorem mem_separators {u : UInt16} : u ∈ separators ↔ u = hyphen ∨ u = underscore := by
  simp [separators, hyphen, underscore]

/-- A further optional part behind a hyphen. -/
theorem mem_words_mul_optional {n : ℕ} {r : RegularExpression UInt16}
    (hr : ∀ s, s ∈ r.matches' ↔ Parts (n + 1) s) (s : JsString) :
    s ∈ (words * optional (char hyphen * r)).matches' ↔ Parts (n + 2) s := by
  rw [mem_mul_optional, parts_succ]
  simp only [mem_words, hr]

theorem mem_separators_mul {n : ℕ} {r : RegularExpression UInt16}
    (hr : ∀ s, s ∈ r.matches' ↔ Parts n s) (s : JsString) :
    s ∈ (oneOf separators * r).matches' ↔
      ∃ u rest, s = u :: rest ∧ (u = hyphen ∨ u = underscore) ∧ Parts n rest := by
  rw [mem_oneOf_mul]
  constructor
  · rintro ⟨u, hu, rest, hrest, rfl⟩
    exact ⟨u, rest, rfl, mem_separators.1 hu, (hr rest).1 hrest⟩
  · rintro ⟨u, rest, rfl, hu, hrest⟩
    exact ⟨u, mem_separators.2 hu, rest, (hr rest).2 hrest, rfl⟩

/-- The expressions match the suffixes of the grammar. -/
theorem test_expression {kind : NameKind} {s : JsString} :
    kind.expression.rmatch s = true ↔ kind.Suffix s := by
  have hone : ∀ s, s ∈ words.matches' ↔ Parts 1 s := fun s => mem_words.trans parts_one.symm
  rw [rmatch_iff_matches']
  cases kind with
  | topic => exact mem_separators_mul hone s
  | queue =>
    exact mem_separators_mul (mem_words_mul_optional (mem_words_mul_optional hone)) s

/-! ## When the functions accept the grammar -/

section Law

variable {runtime : RegExpRuntime} {project : JsString}

/-- What an error says about its name is true. -/
def NamingError.Applies (project : JsString) : NamingError → Prop
  | tooLong kind name => kind.maxLength < name.length
  | outsideProject _ project' name => project' = project ∧ ¬ project <+: name
  | invalid kind name => ∃ rest, name = project ++ rest ∧ ¬ kind.Suffix rest

/-- One of the naming errors, and it applies. -/
def Thrown.IsNaming (project : JsString) (thrown : Thrown) : Prop :=
  ∃ error, thrown = .naming error ∧ error.Applies project

/-- The functions return exactly for the names that follow the conventions, and otherwise
throw one of the naming errors, with a name that it applies to. -/
def GrammarLaw (runtime : RegExpRuntime) (project : JsString) : Prop :=
  (∀ queues : List QueueConfig, Fallible.ReturnsIff (∀ queue ∈ queues, queue.Ok project)
    (Thrown.IsNaming project) (validateQueueConfig runtime queues project)) ∧
  ∀ topics : List TopicConfig, Fallible.ReturnsIff (∀ topic ∈ topics, topic.Ok project)
    (Thrown.IsNaming project) (validateTopicsConfig runtime topics project)

/-- The project says the same as a pattern and as a text: behind `^` it is an expression,
and a name without its match has a suffix of the grammar exactly where the name without
the characters of the project has one. -/
def ReadsAsText (runtime : RegExpRuntime) (project : JsString) : Prop :=
  ∀ (kind : NameKind) (rest : JsString), (project ++ rest).length ≤ kind.maxLength →
    ∃ left, runtime.remove (caret :: project) (project ++ rest) = some left ∧
      (kind.Suffix left ↔ kind.Suffix rest)

theorem nameOk_append {kind : NameKind} {rest : JsString}
    (h : (project ++ rest).length ≤ kind.maxLength) :
    NameOk kind project (project ++ rest) false ↔ kind.Suffix rest := by
  constructor
  · rintro ⟨-, hexternal | ⟨rest', heq, hsuffix⟩⟩
    · cases hexternal
    · rwa [List.append_cancel_left heq]
  · exact fun hsuffix => ⟨h, Or.inr ⟨rest, rfl, hsuffix⟩⟩

/-- The check of one name that begins with the project. -/
theorem validateName_append {kind : NameKind} {rest : JsString}
    (h : (project ++ rest).length ≤ kind.maxLength) :
    validateName runtime kind project (project ++ rest) false
      = match runtime.remove (caret :: project) (project ++ rest) with
        | none => .error .syntaxError
        | some left =>
          if kind.expression.rmatch left then .ok ()
          else .error (.naming (.invalid kind (project ++ rest))) := by
  rw [validateName, if_neg (Nat.not_lt.2 h), if_neg (by decide),
    if_pos (List.isPrefixOf_iff_prefix.2 (List.prefix_append project rest))]

/-- The check of such a name is right exactly where the two readings agree. -/
theorem returnsIff_append {kind : NameKind} {rest : JsString}
    (h : (project ++ rest).length ≤ kind.maxLength) :
    Fallible.ReturnsIff (NameOk kind project (project ++ rest) false) (Thrown.IsNaming project)
        (validateName runtime kind project (project ++ rest) false) ↔
      ∃ left, runtime.remove (caret :: project) (project ++ rest) = some left ∧
        (kind.Suffix left ↔ kind.Suffix rest) := by
  rw [validateName_append h, Fallible.ReturnsIff, nameOk_append h]
  cases hremove : runtime.remove (caret :: project) (project ++ rest) with
  | none =>
    constructor
    · rintro ⟨-, herror⟩
      obtain ⟨error, herror, -⟩ := herror _ rfl
      cases herror
    · rintro ⟨left, hleft, -⟩
      cases hleft
  | some left =>
    have hok : (if kind.expression.rmatch left then (.ok () : Except Thrown Unit)
        else .error (.naming (.invalid kind (project ++ rest)))) = .ok () ↔ kind.Suffix left := by
      rw [← test_expression]
      split <;> simp_all
    simp only [Option.some.injEq, exists_eq_left']
    rw [hok]
    refine and_iff_left_of_imp fun hreads error herror => ?_
    split at herror
    · cases herror
    · rename_i hleft
      cases herror
      exact ⟨_, rfl, rest, rfl, fun hrest => hleft (test_expression.2 (hreads.2 hrest))⟩

/-- The check of any name is right where the two readings agree. -/
theorem validateName_returnsIff (hreads : ReadsAsText runtime project) (kind : NameKind)
    (name : JsString) (isExternal : Bool) :
    Fallible.ReturnsIff (NameOk kind project name isExternal) (Thrown.IsNaming project)
      (validateName runtime kind project name isExternal) := by
  by_cases hlength : kind.maxLength < name.length
  · rw [validateName, if_pos hlength]
    exact .throws (fun hok => absurd hok.1 (Nat.not_le.2 hlength)) ⟨_, rfl, hlength⟩
  · cases isExternal with
    | true =>
      rw [validateName, if_neg hlength, if_pos rfl]
      exact .pass ⟨Nat.not_lt.1 hlength, Or.inl rfl⟩
    | false =>
      by_cases hproject : project <+: name
      · obtain ⟨rest, rfl⟩ := hproject
        exact (returnsIff_append (Nat.not_lt.1 hlength)).2
          (hreads kind rest (Nat.not_lt.1 hlength))
      · rw [validateName, if_neg hlength, if_neg (by decide),
          if_neg fun h => hproject (List.isPrefixOf_iff_prefix.1 h)]
        refine .throws ?_ ⟨_, rfl, rfl, hproject⟩
        rintro ⟨-, hexternal | ⟨rest, rfl, -⟩⟩
        · cases hexternal
        · exact hproject (List.prefix_append project rest)

theorem validateQueueConfig_returnsIff (hreads : ReadsAsText runtime project)
    (queues : List QueueConfig) : Fallible.ReturnsIff (∀ queue ∈ queues, queue.Ok project)
      (Thrown.IsNaming project) (validateQueueConfig runtime queues project) :=
  .forM fun queue _ => validateName_returnsIff hreads .queue queue.queueName queue.isExternal

theorem validateTopicsConfig_returnsIff (hreads : ReadsAsText runtime project)
    (topics : List TopicConfig) : Fallible.ReturnsIff (∀ topic ∈ topics, topic.Ok project)
      (Thrown.IsNaming project) (validateTopicsConfig runtime topics project) :=
  .forM fun topic _ =>
    (validateName_returnsIff hreads .topic topic.topicName topic.isExternal).bind
      (validateQueueConfig_returnsIff hreads _)

/-- The law for one queue of its own. -/
theorem queue_returnsIff (h : GrammarLaw runtime project) (name : JsString) :
    Fallible.ReturnsIff (NameOk .queue project name false) (Thrown.IsNaming project)
      (validateName runtime .queue project name false) := by
  have hqueue := h.1 [⟨name, false⟩]
  have hloop : validateQueueConfig runtime [⟨name, false⟩] project
      = validateName runtime .queue project name false := by
    simp [validateQueueConfig]
  rw [hloop] at hqueue
  exact hqueue.congr (by simp [QueueConfig.Ok])

/-- The law for one topic without queues. -/
theorem topic_returnsIff (h : GrammarLaw runtime project) (name : JsString) :
    Fallible.ReturnsIff (NameOk .topic project name false) (Thrown.IsNaming project)
      (validateName runtime .topic project name false) := by
  have htopic := h.2 [⟨name, false, []⟩]
  have hloop : validateTopicsConfig runtime [⟨name, false, []⟩] project
      = validateName runtime .topic project name false := by
    simp [validateTopicsConfig, validateQueueConfig]
  rw [hloop] at htopic
  exact htopic.congr (by simp [TopicConfig.Ok])

/-- A project of ordinary characters says the same as a pattern and as a text. -/
theorem readsAsText_of_plain (h : ∀ u ∈ project, u ∉ syntaxCharacters) :
    ReadsAsText runtime project := by
  intro kind rest _
  refine ⟨rest, ?_, Iff.rfl⟩
  rw [RegExpRuntime.remove, runtime.compile_plain project h]
  simp

/-- A project that is not an expression behind `^`, and is itself within the limit. -/
theorem not_readsAsText_of_not_compiled (h : runtime.compile (caret :: project) = none)
    (hlength : project.length ≤ MAX_TOPIC_NAME_LENGTH) : ¬ ReadsAsText runtime project := by
  intro hreads
  have hfits : (project ++ []).length ≤ NameKind.topic.maxLength := by
    rw [List.append_nil]
    exact hlength
  obtain ⟨left, hleft, -⟩ := hreads .topic [] hfits
  rw [RegExpRuntime.remove, h] at hleft
  cases hleft

/-- **When the grammar is accepted.**  Exactly for the projects that say the same as a
pattern and as a text: all projects of ordinary characters, and none within the limit that
makes no expression. -/
theorem grammarLaw_iff (runtime : RegExpRuntime) (project : JsString) :
    (GrammarLaw runtime project ↔ ReadsAsText runtime project) ∧
      ((∀ u ∈ project, u ∉ syntaxCharacters) → GrammarLaw runtime project) ∧
      (runtime.compile (caret :: project) = none → project.length ≤ MAX_TOPIC_NAME_LENGTH →
        ¬ GrammarLaw runtime project) := by
  have hiff : GrammarLaw runtime project ↔ ReadsAsText runtime project := by
    constructor
    · rintro hlaw (_ | _) rest hlength
      · exact (returnsIff_append hlength).1 (topic_returnsIff hlaw _)
      · exact (returnsIff_append hlength).1 (queue_returnsIff hlaw _)
    · exact fun hreads => ⟨validateQueueConfig_returnsIff hreads,
        validateTopicsConfig_returnsIff hreads⟩
  exact ⟨hiff, fun hplain => hiff.2 (readsAsText_of_plain hplain),
    fun hcompile hlength hlaw => not_readsAsText_of_not_compiled hcompile hlength (hiff.1 hlaw)⟩

end Law

/-! ## A project with a plus sign -/

/-- A pattern of ordinary characters, each marked where a plus sign follows it. -/
def plusItems : JsString → Option (List (UInt16 × Bool))
  | [] => some []
  | [u] => if u ∈ syntaxCharacters then none else some [(u, false)]
  | u :: v :: pattern =>
    if u ∈ syntaxCharacters then none
    else if v = 0x2B then (plusItems pattern).map ((u, true) :: ·)
    else (plusItems (v :: pattern)).map ((u, false) :: ·)

/-- How much the items match at the front of a text, trying longer repetitions first. -/
def plusMatch : List (UInt16 × Bool) → JsString → Option ℕ
  | [], _ => some 0
  | _ :: _, [] => none
  | (u, repeated) :: items, v :: text =>
    if u = v then
      ((if repeated then plusMatch ((u, repeated) :: items) text else none).or
        (plusMatch items text)).map (· + 1)
    else none

def plusCompile : JsString → Option (JsString → Option (ℕ × ℕ))
  | [] => none
  | u :: pattern =>
    if u = caret then
      (plusItems pattern).map fun items text => (plusMatch items text).map fun n => (0, n)
    else none

theorem plusItems_plain {s : JsString} (h : ∀ u ∈ s, u ∉ syntaxCharacters) :
    plusItems s = some (s.map fun u => (u, false)) := by
  induction s with
  | nil => rfl
  | cons u s ih =>
    obtain ⟨hu, hs⟩ := List.forall_mem_cons.1 h
    cases s with
    | nil => simp [plusItems, hu]
    | cons v s =>
      have hv : v ≠ 0x2B := by
        rintro rfl
        exact hs _ (List.mem_cons_self) (by decide)
      rw [plusItems, if_neg hu, if_neg hv, ih hs]
      rfl

theorem plusMatch_plain (s text : JsString) :
    plusMatch (s.map fun u => (u, false)) text
      = if s.isPrefixOf text then some s.length else none := by
  induction s generalizing text with
  | nil => simp [plusMatch]
  | cons u s ih =>
    cases text with
    | nil => simp [plusMatch]
    | cons v text =>
      rw [List.map_cons, plusMatch, ih]
      by_cases huv : u = v
      · by_cases hs : s.isPrefixOf text = true
        · simp [huv, hs]
        · simp [huv, hs]
      · simp [huv]

/-- Expressions of ordinary characters and plus signs behind `^`. -/
def plusRuntime : RegExpRuntime where
  compile := plusCompile
  compile_plain s h := by
    rw [plusCompile, if_pos rfl, plusItems_plain h]
    refine congrArg some (funext fun text => ?_)
    show (plusMatch (s.map fun u => (u, false)) text).map (fun n => (0, n)) = _
    rw [plusMatch_plain]
    split <;> rfl

/-- `a+b` -/
def plusProject : JsString := [0x61, 0x2B, 0x62]

/-- `-flow` -/
def flow : JsString := [0x2D, 0x66, 0x6C, 0x6F, 0x77]

/-- In `a+b-flow` the expression `^a+b` finds nothing, and the name is refused. -/
theorem plusProject_not_grammarLaw :
    validateQueueConfig plusRuntime [⟨plusProject ++ flow, false⟩] plusProject
        = .error (.naming (.invalid .queue (plusProject ++ flow))) ∧
      QueueConfig.Ok plusProject ⟨plusProject ++ flow, false⟩ ∧
      ¬ GrammarLaw plusRuntime plusProject := by
  have hrefused : validateQueueConfig plusRuntime [⟨plusProject ++ flow, false⟩] plusProject
      = .error (.naming (.invalid .queue (plusProject ++ flow))) := by
    decide +kernel
  have hok : QueueConfig.Ok plusProject ⟨plusProject ++ flow, false⟩ :=
    (nameOk_append (by decide)).2 (test_expression.1 (by decide +kernel))
  refine ⟨hrefused, hok, fun hlaw => ?_⟩
  have hreturns := (hlaw.1 [⟨plusProject ++ flow, false⟩]).1.2 (by simpa using hok)
  rw [hrefused] at hreturns
  cases hreturns

end SharedTsLibs.AwsConfig
