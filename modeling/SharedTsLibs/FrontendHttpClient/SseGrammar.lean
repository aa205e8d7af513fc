import SharedTsLibs.FrontendHttpClient.EventStream
import SharedTsLibs.Lib.TextDecoder

/-!
# The parser against the event-stream grammar

The parser splits at LF alone, knows the `event:` and `data:` prefixes alone, trims
what follows them, and takes an empty line for a blank line only once it holds data.
So it reads a stream in groups of LF lines, one event for each group, where the
standard reads the same group as CR, LF and CRLF lines in blocks.

* `Conforms` — the streams on which the two readings agree, line by line and group
  by group.
* `eventsOf_eq`, `interpret_groups` — the events of the parser and of the standard,
  group by group.
* `parseSseStream_grammar_iff` — the parser yields the events of the standard
  exactly on the streams that conform.
-/

namespace SharedTsLibs.FrontendHttpClient

open JsText Lines

/-! ## Groups -/

/-- What an LF line gives after one of the two prefixes of the parser. -/
def restAfter (pre line : Text) : Option Text :=
  if pre.isPrefixOf line then some (line.drop pre.length) else none

def dataRest : Text → Option Text := restAfter "data:".toList

def eventRest : Text → Option Text := restAfter "event:".toList

/-- Some `data:` line of the group has more than white space. -/
def carriesData (group : List Text) : Bool :=
  (group.filterMap dataRest).any fun r => !(trim r).isEmpty

/-- The LF lines cut into groups, each up to an empty line at which it carries data,
and what is left after the last of these. -/
def dispatchGroups : List Text → List Text → List (List Text) × List Text
  | group, [] => ([], group)
  | group, line :: lines =>
    if line = [] ∧ carriesData group = true then
      (group :: (dispatchGroups [] lines).1, (dispatchGroups [] lines).2)
    else dispatchGroups (group ++ [line]) lines

/-- The event type that the last `event:` line of a group names. -/
def groupType (group : List Text) : Text :=
  (((group.filterMap eventRest).getLast?).map trim).getD "message".toList

/-- The values of the `data:` lines of a group. -/
def groupValues (group : List Text) : List Text := (group.filterMap dataRest).map trim

/-- What the parser joins: the values, without the blank ones in front. -/
def joinValues (values : List Text) : Text := ['\n'].intercalate (values.dropWhile (· = []))

/-- The parser after the lines of a group. -/
def groupParser (group : List Text) : SseParser := ⟨groupType group, joinValues (groupValues group)⟩

/-- The event of a group. -/
def groupEvent (group : List Text) : SseEvent := ⟨groupType group, joinValues (groupValues group)⟩

theorem carriesData_iff {group : List Text} :
    carriesData group = true ↔ ∃ v ∈ groupValues group, v ≠ [] := by
  rw [carriesData, List.any_eq_true, groupValues]
  simp only [List.mem_map, exists_exists_and_eq_and, Bool.not_eq_true', List.isEmpty_eq_false_iff]

/-- Nothing is joined exactly when no value is left. -/
theorem joinValues_eq_nil_iff {values : List Text} :
    joinValues values = [] ↔ values.dropWhile (· = []) = [] := by
  rw [joinValues]
  cases h : values.dropWhile (· = []) with
  | nil => simp
  | cons v vs =>
    have hv : v ≠ [] := by
      have hn := List.head?_dropWhile_not (· = []) values
      rw [h] at hn
      simpa using hn
    refine iff_of_false ?_ (by simp)
    cases vs with
    | nil => simpa using hv
    | cons w ws =>
      rw [List.intercalate_cons_of_ne_nil (by simp)]
      simp [hv]

/-- How the parser adds a value. -/
theorem joinValues_append (values : List Text) (v : Text) :
    joinValues (values ++ [v]) =
      (if joinValues values ≠ [] then joinValues values ++ ['\n'] else joinValues values) ++ v := by
  by_cases h : values.dropWhile (· = []) = []
  · have hvalues := joinValues_eq_nil_iff.2 h
    rw [if_neg (not_not.2 hvalues), hvalues, List.nil_append, joinValues, List.dropWhile_append, h]
    cases v <;> simp
  · have hne : (values.dropWhile (· = [])).isEmpty = false := by simpa using h
    rw [if_pos (mt joinValues_eq_nil_iff.1 h), joinValues, joinValues, List.dropWhile_append, hne,
      if_neg (by decide), intercalate_append_singleton, intercalate_append_sep '\n' h]

theorem carriesData_iff_joinValues {group : List Text} :
    carriesData group = true ↔ joinValues (groupValues group) ≠ [] := by
  rw [carriesData_iff, Ne, joinValues_eq_nil_iff, List.dropWhile_eq_nil_iff]
  simp

/-- A line has one prefix at most. -/
theorem dataRest_eq_none {line : Text} (h : "event:".toList.isPrefixOf line = true) :
    "data:".toList.isPrefixOf line = false := by
  cases line with
  | nil => rfl
  | cons c line =>
    have hc : 'e' = c := by
      have hpre := List.isPrefixOf_iff_prefix.1 h
      exact (List.cons_prefix_cons.1 hpre).1
    subst hc
    rfl

theorem groupValues_append (group : List Text) (line : Text) :
    groupValues (group ++ [line]) = groupValues group ++ ((dataRest line).map trim).toList := by
  rw [groupValues, groupValues, List.filterMap_append, List.map_append]
  cases h : dataRest line <;> simp [h]

theorem groupType_append (group : List Text) (line : Text) :
    groupType (group ++ [line]) = ((eventRest line).map trim).getD (groupType group) := by
  rw [groupType, groupType, List.filterMap_append]
  cases h : eventRest line <;> simp [h]

/-- A line at which no event is due joins the group. -/
theorem processLine_groupParser {group : List Text} {line : Text}
    (h : ¬(line = [] ∧ carriesData group = true)) :
    (groupParser group).processLine line = (groupParser (group ++ [line]), none) := by
  rw [carriesData_iff_joinValues] at h
  rw [SseParser.processLine, groupParser, groupParser, groupType_append, groupValues_append]
  by_cases hevent : "event:".toList.isPrefixOf line = true
  · have htype : eventRest line = some (line.drop 6) := if_pos hevent
    have hdata : dataRest line = none := if_neg (by rw [dataRest_eq_none hevent]; decide)
    rw [if_pos hevent, htype, hdata, Option.map_none, Option.toList_none, List.append_nil,
      Option.map_some, Option.getD_some]
  · have htype : eventRest line = none := if_neg hevent
    rw [if_neg hevent, htype, Option.map_none, Option.getD_none]
    by_cases hdata : "data:".toList.isPrefixOf line = true
    · have hrest : dataRest line = some (line.drop 5) := if_pos hdata
      rw [if_pos hdata, hrest, Option.map_some, Option.toList_some, joinValues_append]
    · have hrest : dataRest line = none := if_neg hdata
      rw [if_neg hdata, if_neg h, hrest, Option.map_none, Option.toList_none, List.append_nil]

/-- At an empty line at which the group carries data, its event is due. -/
theorem processLine_groupEvent {group : List Text} (h : carriesData group = true) :
    (groupParser group).processLine [] = (groupParser [], some (groupEvent group)) := by
  have hdata := carriesData_iff_joinValues.1 h
  rw [SseParser.processLine, if_neg (by decide), if_neg (by decide), if_pos ⟨rfl, hdata⟩]
  rfl

/-- The parser yields one event for each group. -/
theorem lineReader_groups (group lines : List Text) :
    (lineReader.feed (groupParser group) lines).2 =
      (dispatchGroups group lines).1.map groupEvent := by
  fun_induction dispatchGroups group lines with
  | case1 group => rfl
  | case2 group line lines h ih =>
    obtain ⟨rfl, hdata⟩ := h
    rw [lineReader, Transducer.ofStep_feed_cons, processLine_groupEvent hdata, List.map_cons, ← ih]
    rfl
  | case3 group line lines h ih =>
    rw [lineReader, Transducer.ofStep_feed_cons, processLine_groupParser h, ← ih]
    rfl

theorem eventsOf_eq (text : Text) :
    eventsOf text = (dispatchGroups [] (terminated '\n' text)).1.map groupEvent :=
  lineReader_groups [] (terminated '\n' text)

/-- Every group carries data. -/
theorem carriesData_of_mem {group lines g : List Text} (h : g ∈ (dispatchGroups group lines).1) :
    carriesData g = true := by
  fun_induction dispatchGroups group lines with
  | case1 group => cases h
  | case2 group line lines hline ih =>
    rcases List.mem_cons.1 h with rfl | h
    · exact hline.2
    · exact ih h
  | case3 group line lines hline ih => exact ih h

/-- The groups, each with the empty line that ends it, and what is left are all the
lines. -/
theorem dispatchGroups_flatten (group lines : List Text) :
    (dispatchGroups group lines).1.flatMap (· ++ [[]]) ++ (dispatchGroups group lines).2 =
      group ++ lines := by
  fun_induction dispatchGroups group lines with
  | case1 group => simp
  | case2 group line lines h ih =>
    obtain ⟨rfl, -⟩ := h
    rw [List.flatMap_cons, List.append_assoc, List.append_assoc, ih]
    simp
  | case3 group line lines h ih => rw [ih, List.append_assoc, List.singleton_append]

/-- The blocks that the standard makes of a group and of the empty line that ends it. -/
def groupBlocks (group : List Text) : List (List Text) :=
  terminated [] ((group ++ [[]]).flatMap crLines)

/-- The blocks that it makes of what is left after the last group. -/
def leftoverBlocks (text : Text) : List (List Text) :=
  terminated [] ((dispatchGroups [] (terminated '\n' text)).2.flatMap crLines ++
    terminated '\r' (rest '\n' text))

/-- The standard dispatches group by group as well: the empty line that ends a group
is blank. -/
theorem interpret_groups (text : Text) :
    interpret text = (dispatchGroups [] (terminated '\n' text)).1.flatMap
        (fun g => (groupBlocks g).filterMap blockEvent) ++
      (leftoverBlocks text).filterMap blockEvent := by
  have hblocks : ∀ (gs : List (List Text)) (lines : List Text),
      (terminated [] (gs.flatMap (fun g => (g ++ [[]]).flatMap crLines) ++ lines)).filterMap
          blockEvent =
        gs.flatMap (fun g => (groupBlocks g).filterMap blockEvent) ++
          (terminated [] lines).filterMap blockEvent := by
    intro gs lines
    induction gs with
    | nil => rfl
    | cons g gs ih =>
      have hg : (g ++ [[]]).flatMap crLines = g.flatMap crLines ++ [[]] := by
        rw [List.flatMap_append, List.flatMap_singleton, crLines_nil]
      rw [List.flatMap_cons, hg, List.append_assoc, terminated_concat_append,
        List.filterMap_append, ih, List.flatMap_cons, List.append_assoc, groupBlocks, hg]
  have hlines := dispatchGroups_flatten [] (terminated '\n' text)
  rw [List.nil_append] at hlines
  rw [interpret_eq, leftoverBlocks, ← hblocks, ← List.append_assoc, ← List.flatMap_assoc,
    ← List.flatMap_append, hlines]

/-! ## Lines that say the same to both -/

/-- The value that the standard reads after `data:`. -/
def dataPart (r : Text) : Text := dropSpace (r.takeWhile (· ≠ '\r'))

/-- An LF line is plain when it sets no data but through the `data:` it starts with,
its value has no white space around it but one space in front, and no more than
white space follows its first CR. -/
def PlainLine (line : Text) : Prop :=
  match dataRest line with
  | some r => trim (dataPart r) = dataPart r ∧
      ∀ c ∈ r.dropWhile (· ≠ '\r'), isWhitespace c = true
  | none => ∀ l ∈ crLines line, dataValue l = none

/-- The data that the standard reads off an LF line. -/
def lineValues (line : Text) : List Text := (crLines line).filterMap dataValue

theorem mem_of_mem_crLines {line l : Text} (hl : l ∈ crLines line) {c : Char} (hc : c ∈ l) :
    c ∈ line := by
  rw [crLines] at hl
  split at hl
  · exact List.dropLast_subset _ (mem_of_mem_splitOn hl hc)
  · exact mem_of_mem_splitOn hl hc

/-- A line of white space sets no data. -/
theorem dataValue_of_isWhitespace {line : Text} (h : ∀ c ∈ line, isWhitespace c = true) :
    dataValue line = none := by
  have hcolon : ':' ∉ line := fun hm => absurd (h ':' hm) (by decide)
  have hhead : line.head? ≠ some ':' := fun hh => hcolon (List.mem_of_head? hh)
  have hdrop : line.dropWhile (· ≠ ':') = [] := by
    rw [List.dropWhile_eq_nil_iff]
    intro c hc
    have hne : c ≠ ':' := fun he => hcolon (he ▸ hc)
    simpa using hne
  have hname : line ≠ "data".toList := by
    rintro rfl
    exact absurd (h 'd' (by decide)) (by decide)
  have hfield : lineField line = some (line, []) := by
    rw [lineField, if_neg hhead, hdrop]
  rw [dataValue, fieldValue, hfield, Option.bind_some, if_neg hname]

theorem dataValue_data (r : Text) : dataValue ("data:".toList ++ r) = some (dropSpace r) := rfl

/-- What the standard reads off a `data:` line. -/
theorem lineValues_data (r : Text) :
    ∃ more, lineValues ("data:".toList ++ r) = dataPart r :: more ∧
      ((∀ c ∈ r.dropWhile (· ≠ '\r'), isWhitespace c = true) → more = []) := by
  have hpart : '\r' ∉ "data:".toList ++ r.takeWhile (· ≠ '\r') := by
    intro hm
    rcases List.mem_append.1 hm with hm | hm
    · exact absurd hm (by decide)
    · simpa using List.mem_takeWhile_imp hm
  have hr : "data:".toList ++ r =
      ("data:".toList ++ r.takeWhile (· ≠ '\r')) ++ r.dropWhile (· ≠ '\r') := by
    rw [List.append_assoc, List.takeWhile_append_dropWhile]
  rw [lineValues, hr]
  cases htail : r.dropWhile (· ≠ '\r') with
  | nil =>
    refine ⟨[], ?_, fun _ => rfl⟩
    rw [List.append_nil, crLines_of_not_mem hpart, List.filterMap_cons, dataValue_data]
    rfl
  | cons c t =>
    have hc : c = '\r' := by
      have hn := List.head?_dropWhile_not (· ≠ '\r') r
      rw [htail] at hn
      simpa using hn
    subst hc
    by_cases ht : t = []
    · subst ht
      refine ⟨[], ?_, fun _ => rfl⟩
      rw [crLines_append_cr hpart, List.filterMap_cons, dataValue_data]
      rfl
    · refine ⟨(crLines t).filterMap dataValue, ?_, fun hblank => ?_⟩
      · rw [crLines_append_cons hpart ht, List.filterMap_cons, dataValue_data]
        rfl
      · refine List.filterMap_eq_nil_iff.2 fun l hl => dataValue_of_isWhitespace fun d hd => ?_
        exact hblank d (List.mem_cons_of_mem _ (mem_of_mem_crLines hl hd))

theorem trim_dropSpace (value : Text) : trim (dropSpace value) = trim value := by
  unfold dropSpace
  split
  · exact (trim_cons_of_isWhitespace (by decide) _).symm
  · rfl

theorem filter_dropSpace (value : Text) :
    (dropSpace value).filter (fun c => !isWhitespace c) =
      value.filter fun c => !isWhitespace c := by
  rw [← filter_trim, trim_dropSpace, filter_trim]

/-- The parser and the standard read one value off a `data:` line exactly when it has
no white space around it and none but white space follows it. -/
theorem dataPart_eq_trim_iff (r : Text) :
    dataPart r = trim r ↔ trim (dataPart r) = dataPart r ∧
      ∀ c ∈ r.dropWhile (· ≠ '\r'), isWhitespace c = true := by
  constructor
  · intro h
    refine ⟨by rw [h, trim_trim], ?_⟩
    have hchars := congrArg (List.filter fun c => !isWhitespace c) h
    rw [dataPart, filter_dropSpace, filter_trim] at hchars
    conv_rhs at hchars => rw [← List.takeWhile_append_dropWhile (p := (· ≠ '\r')) (l := r),
      List.filter_append]
    have hnil := List.append_right_eq_self.1 hchars.symm
    intro c hc
    simpa using List.filter_eq_nil_iff.1 hnil c hc
  · rintro ⟨hpart, htail⟩
    conv_rhs => rw [← List.takeWhile_append_dropWhile (p := (· ≠ '\r')) (l := r),
      trim_append_of_isWhitespace htail, ← trim_dropSpace]
    exact hpart.symm

theorem dataRest_eq_some {line r : Text} (h : dataRest line = some r) :
    line = "data:".toList ++ r := by
  rw [dataRest, restAfter] at h
  split at h
  · rename_i hpre
    obtain ⟨t, rfl⟩ := List.isPrefixOf_iff_prefix.1 hpre
    rw [List.drop_left] at h
    rw [Option.some.inj h]
  · cases h

/-- Both readers take the same data from an LF line exactly when it is plain. -/
theorem lineValues_eq_iff (line : Text) :
    lineValues line = ((dataRest line).map trim).toList ↔ PlainLine line := by
  cases h : dataRest line with
  | none =>
    simp only [PlainLine, h]
    exact List.filterMap_eq_nil_iff
  | some r =>
    simp only [PlainLine, h]
    obtain ⟨more, hmore, hnil⟩ := lineValues_data r
    rw [dataRest_eq_some h, hmore, ← dataPart_eq_trim_iff]
    constructor
    · intro he
      exact (List.cons.inj he).1
    · intro he
      rw [hnil ((dataPart_eq_trim_iff r).1 he).2, he]
      rfl

/-- The standard reads data off every line that the parser does. -/
theorem length_le_lineValues (line : Text) :
    ((dataRest line).map trim).toList.length ≤ (lineValues line).length := by
  cases h : dataRest line with
  | none => exact Nat.zero_le _
  | some r =>
    obtain ⟨more, hmore, -⟩ := lineValues_data r
    rw [dataRest_eq_some h, hmore]
    simp

/-! ## Groups that say the same to both -/

/-- A block dispatches an event. -/
def setsData (block : List Text) : Bool := !(block.filterMap dataValue).isEmpty

/-- A group conforms when its lines are plain, its first `data:` line is not blank,
and just one of its blocks sets data and names the event type that the group does. -/
structure GroupConforms (group : List Text) : Prop where
  plain : ∀ line ∈ group, PlainLine line
  first : ∀ r ∈ (group.filterMap dataRest).head?, trim r ≠ []
  block : ∃ b, (groupBlocks group).filter setsData = [b] ∧ blockType b = groupType group

/-- A stream conforms when its groups do and nothing after the last of them
dispatches an event. -/
structure Conforms (text : Text) : Prop where
  groups : ∀ group ∈ (dispatchGroups [] (terminated '\n' text)).1, GroupConforms group
  leftover : ∀ block ∈ leftoverBlocks text, setsData block = false

/-- The events of some blocks, one for each block that sets data. -/
theorem blockEvents_eq (blocks : List (List Text)) :
    blocks.filterMap blockEvent = (blocks.filter setsData).map fun b =>
      ⟨blockType b, ['\n'].intercalate (b.filterMap dataValue)⟩ := by
  induction blocks with
  | nil => rfl
  | cons b blocks ih =>
    by_cases hb : b.filterMap dataValue = []
    · have hevent : blockEvent b = none := if_pos hb
      have hsets : ¬setsData b = true := by simp [setsData, hb]
      rw [List.filterMap_cons_none hevent, List.filter_cons_of_neg hsets, ih]
    · have hevent : blockEvent b = some _ := if_neg hb
      have hsets : setsData b = true := by simpa [setsData] using hb
      rw [List.filterMap_cons_some hevent, List.filter_cons_of_pos hsets, ih, List.map_cons]

/-- The data of a group, off its blocks and off its lines. -/
theorem groupBlocks_values (group : List Text) :
    ((groupBlocks group).filter setsData).flatMap (·.filterMap dataValue) =
      group.flatMap lineValues := by
  have hfilter : ∀ blocks : List (List Text),
      (blocks.filter setsData).flatMap (·.filterMap dataValue) =
        blocks.flatMap (·.filterMap dataValue) := by
    intro blocks
    induction blocks with
    | nil => rfl
    | cons b blocks ih =>
      by_cases hb : b.filterMap dataValue = []
      · rw [List.filter_cons_of_neg (by simp [setsData, hb]), ih, List.flatMap_cons, hb,
          List.nil_append]
      · rw [List.filter_cons_of_pos (by simpa [setsData] using hb), List.flatMap_cons, ih,
          List.flatMap_cons]
  have hlines : (groupBlocks group).flatMap (·.filterMap dataValue) =
      (group.flatMap crLines).filterMap dataValue := by
    have hblank : ([[]] : List Text).filterMap dataValue = [] := rfl
    rw [groupBlocks, List.flatMap_append, List.flatMap_singleton, crLines_nil, terminated_concat,
      List.flatMap_append, List.flatMap_singleton]
    conv_rhs => rw [← flatMap_terminated_append_rest [] (group.flatMap crLines),
      List.filterMap_append, List.filterMap_flatMap]
    simp only [List.filterMap_append, hblank, List.append_nil]
  rw [hfilter, hlines, List.filterMap_flatMap]
  rfl

theorem groupValues_eq (group : List Text) :
    groupValues group = group.flatMap fun line => ((dataRest line).map trim).toList := by
  induction group with
  | nil => rfl
  | cons line group ih =>
    rw [List.flatMap_cons, ← ih, groupValues, groupValues]
    cases h : dataRest line <;> simp [h]

/-- The data of a value is part of its line. -/
theorem mem_of_dataValue {line value : Text} (h : dataValue line = some value) {c : Char}
    (hc : c ∈ value) : c ∈ line := by
  obtain ⟨field, hfield, hname⟩ := Option.bind_eq_some_iff.1 h
  have hspace : ∀ {v : Text}, c ∈ dropSpace v → c ∈ v := by
    intro v hv
    unfold dropSpace at hv
    split at hv
    · exact List.mem_cons_of_mem _ hv
    · exact hv
  split at hname
  · rw [← Option.some.inj hname] at hc
    rw [lineField] at hfield
    split at hfield
    · cases hfield
    · split at hfield
      · cases hfield
        cases hc
      · rename_i c' v hdrop
        cases hfield
        exact List.dropWhile_subset _ (hdrop ▸ List.mem_cons_of_mem c' (hspace hc))
  · cases hname

theorem lf_not_mem_lineValues {line v : Text} (h : '\n' ∉ line) (hv : v ∈ lineValues line) :
    '\n' ∉ v := by
  obtain ⟨l, hl, hlv⟩ := List.mem_filterMap.1 hv
  exact fun hc => h (mem_of_mem_crLines hl (mem_of_dataValue hlv hc))

theorem lf_not_mem_groupValues {group : List Text} (h : ∀ line ∈ group, '\n' ∉ line) {v : Text}
    (hv : v ∈ groupValues group) : '\n' ∉ v := by
  obtain ⟨r, hr, rfl⟩ := List.mem_map.1 hv
  obtain ⟨line, hline, hrest⟩ := List.mem_filterMap.1 hr
  intro hc
  refine h line hline ?_
  rw [dataRest_eq_some hrest]
  exact List.mem_append_right _ (mem_of_mem_trim hc)

/-- The standard reads at least as many values off a group as the parser. -/
theorem length_groupValues_le (group : List Text) :
    (groupValues group).length ≤ (group.flatMap lineValues).length := by
  rw [groupValues_eq]
  exact length_flatMap_le fun line _ => length_le_lineValues line

/-- No value is dropped from the front exactly when the first one is not blank. -/
theorem dropWhile_groupValues_iff (group : List Text) :
    (groupValues group).dropWhile (· = []) = groupValues group ↔
      ∀ r ∈ (group.filterMap dataRest).head?, trim r ≠ [] := by
  rw [groupValues]
  cases h : group.filterMap dataRest with
  | nil => simp
  | cons r rs =>
    by_cases hr : trim r = []
    · have hlen := List.length_dropWhile_le (· = ([] : Text)) (rs.map trim)
      refine iff_of_false ?_ (by simp [hr])
      intro he
      have hcount := congrArg List.length he
      rw [List.map_cons, List.dropWhile_cons_of_pos (by simp [hr]), List.length_cons] at hcount
      omega
    · rw [List.map_cons, List.dropWhile_cons_of_neg (by simpa using hr)]
      simp [hr]

/-- The data of a group comes out the same exactly when its lines are plain and its
first `data:` line is not blank. -/
theorem values_eq_iff (group : List Text) :
    group.flatMap lineValues = (groupValues group).dropWhile (· = []) ↔
      (∀ line ∈ group, PlainLine line) ∧ ∀ r ∈ (group.filterMap dataRest).head?, trim r ≠ [] := by
  have hlines : group.flatMap lineValues = groupValues group ↔ ∀ line ∈ group, PlainLine line := by
    have hpieces := flatMap_append_eq_flatMap_iff (r := []) (l := group)
      fun line _ => length_le_lineValues line
    rw [List.append_nil, ← groupValues_eq] at hpieces
    rw [hpieces, and_iff_left rfl]
    exact forall₂_congr fun line _ => lineValues_eq_iff line
  rw [← hlines, ← dropWhile_groupValues_iff]
  constructor
  · intro he
    have hle := length_groupValues_le group
    have hdrop : (groupValues group).dropWhile (· = []) = groupValues group := by
      refine (List.dropWhile_suffix _).eq_of_length (le_antisymm ?_ ?_)
      · exact (List.dropWhile_suffix _).length_le
      · rw [← he]
        exact hle
    exact ⟨he.trans hdrop, hdrop⟩
  · rintro ⟨he, hdrop⟩
    exact he.trans hdrop.symm

/-- A group that carries data does so for the standard as well. -/
theorem lineValues_ne_nil {group : List Text} (hdata : carriesData group = true) :
    group.flatMap lineValues ≠ [] := by
  obtain ⟨v, hv, -⟩ := carriesData_iff.1 hdata
  have hpos := List.length_pos_of_mem hv
  have hle := length_groupValues_le group
  exact List.ne_nil_of_length_pos (by omega)

/-- The standard dispatches some event in a group that carries data. -/
theorem groupEvents_ne_nil {group : List Text} (hdata : carriesData group = true) :
    (groupBlocks group).filterMap blockEvent ≠ [] := by
  have hne := lineValues_ne_nil hdata
  rw [blockEvents_eq]
  intro hnil
  rw [← groupBlocks_values, List.map_eq_nil_iff.1 hnil] at hne
  exact hne List.flatMap_nil

/-- The standard dispatches the event of a group that carries data, and no other,
exactly when the group conforms. -/
theorem groupEvents_eq_iff {group : List Text} (hdata : carriesData group = true)
    (hlf : ∀ line ∈ group, '\n' ∉ line) :
    (groupBlocks group).filterMap blockEvent = [groupEvent group] ↔ GroupConforms group := by
  have hvalues : ∀ {b : List Text}, (groupBlocks group).filter setsData = [b] →
      b.filterMap dataValue = group.flatMap lineValues := by
    intro b hb
    rw [← groupBlocks_values, hb, List.flatMap_singleton]
  rw [blockEvents_eq, List.map_eq_singleton_iff]
  constructor
  · rintro ⟨b, hb, hevent⟩
    rw [hvalues hb] at hevent
    obtain ⟨htype, hjoin⟩ := SseEvent.mk.inj hevent
    have hne : (groupValues group).dropWhile (· = []) ≠ [] :=
      mt joinValues_eq_nil_iff.2 (carriesData_iff_joinValues.1 hdata)
    have hD : ∀ v ∈ group.flatMap lineValues, '\n' ∉ v := by
      intro v hv
      obtain ⟨line, hline, hv⟩ := List.mem_flatMap.1 hv
      exact lf_not_mem_lineValues (hlf line hline) hv
    have hV : ∀ v ∈ (groupValues group).dropWhile (· = []), '\n' ∉ v := fun v hv =>
      lf_not_mem_groupValues hlf (List.dropWhile_subset _ hv)
    obtain ⟨hplain, hfirst⟩ :=
      (values_eq_iff group).1
        (intercalate_injective (lineValues_ne_nil hdata) hne hD hV hjoin)
    exact ⟨hplain, hfirst, b, hb, htype⟩
  · rintro ⟨hplain, hfirst, b, hb, htype⟩
    refine ⟨b, hb, ?_⟩
    rw [hvalues hb, (values_eq_iff group).2 ⟨hplain, hfirst⟩, htype]
    rfl

theorem blockEvent_eq_none_iff {block : List Text} :
    blockEvent block = none ↔ setsData block = false := by
  rw [blockEvent, setsData]
  cases block.filterMap dataValue <;> simp

/-- The lines of a group have no LF. -/
theorem lf_not_mem_of_mem_group {text : Text} {group : List Text}
    (hg : group ∈ (dispatchGroups [] (terminated '\n' text)).1) {line : Text} (hl : line ∈ group) :
    '\n' ∉ line := by
  have hmem : line ∈ terminated '\n' text := by
    rw [← List.nil_append (terminated '\n' text), ← dispatchGroups_flatten]
    exact List.mem_append_left _ (List.mem_flatMap.2 ⟨group, hg, List.mem_append_left _ hl⟩)
  exact not_mem_of_mem_terminated hmem

/-- The parser and the standard make the same events of a text exactly when it
conforms. -/
theorem eventsOf_eq_interpret_iff (text : Text) :
    eventsOf text = interpret text ↔ Conforms text := by
  rw [eventsOf_eq, interpret_groups, eq_comm, List.map_eq_flatMap,
    flatMap_append_eq_flatMap_iff]
  · have hgroups : (∀ g ∈ (dispatchGroups [] (terminated '\n' text)).1,
        (groupBlocks g).filterMap blockEvent = [groupEvent g]) ↔
        ∀ g ∈ (dispatchGroups [] (terminated '\n' text)).1, GroupConforms g :=
      forall₂_congr fun g hg =>
        groupEvents_eq_iff (carriesData_of_mem hg) fun line hl => lf_not_mem_of_mem_group hg hl
    rw [hgroups, List.filterMap_eq_nil_iff]
    simp only [blockEvent_eq_none_iff]
    exact ⟨fun h => ⟨h.1, h.2⟩, fun h => ⟨h.groups, h.leftover⟩⟩
  · intro g hg
    exact List.length_pos_of_ne_nil (groupEvents_ne_nil (carriesData_of_mem hg))

/-- **What `parseSseStream` yields is what the standard dispatches exactly on the
streams that conform**, however they are cut into chunks. -/
theorem parseSseStream_grammar_iff {σ ε : Type} (decoder : Transducer σ UInt8 Char) (d₀ : σ)
    (chunks : List (List UInt8)) :
    (parseSseStream (ε := ε) decoder d₀ (arrivals chunks ++ [{ read := .done }])).yielded =
        interpret (decodedText decoder d₀ chunks) ↔
      Conforms (decodedText decoder d₀ chunks) := by
  rw [yielded_eq, eventsOf_eq_interpret_iff]

/-- The bytes of a stream with CRLF line ends. -/
def crlfStream : List UInt8 :=
  [0x64, 0x61, 0x74, 0x61, 0x3A, 0x20, 0x78, 0x0D, 0x0A, 0x0D, 0x0A]

/-- The event of a well-formed stream with CRLF line ends is not yielded: the line
that should dispatch it is a CR to the parser. -/
theorem parseSseStream_misses_crlf :
    IsEventStream (decodedText TextDecoder.utf8 {} [crlfStream]) ∧
      interpret (decodedText TextDecoder.utf8 {} [crlfStream]) = [⟨"message".toList, ['x']⟩] ∧
      (parseSseStream (ε := Empty) TextDecoder.utf8 {}
        (arrivals [crlfStream] ++ [{ read := .done }])).yielded = [] := by
  have hascii : ∀ b ∈ crlfStream, b.toNat ≤ 0x7F := by simp [crlfStream]
  have htext : decodedText TextDecoder.utf8 {} [crlfStream] = "data: x\r\n\r\n".toList := by
    rw [decodedText, List.flatten_singleton, TextDecoder.utf8_ascii rfl hascii]
    rfl
  refine ⟨?_, ?_, ?_⟩
  · rw [htext]
    have hbody : IsLineBody ("data".toList ++ ':' :: " x".toList) :=
      .fieldValue (by decide) (by simp [IsLineChar]) (by simp [IsLineChar])
    exact .cons (.line hbody .crlf (.blank .crlf)) .nil
  · rw [htext]
    decide
  · rw [yielded_eq, htext]
    decide

end SharedTsLibs.FrontendHttpClient
