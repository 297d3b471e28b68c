import Overseer.Libraries
import Overseer.Proofs.NamePatterns

set_option autoImplicit false

/-! # Lines about names

What a library of patterns makes of a list of lines is not for the program to say. What the
program relies on are lines of a few kinds, each of them about a single name: a name wherever it
stands, a directory with something below, the end of a name. `NamesRead` states what the library
is documented to do with them, and the library that is built in does so
(`namesRead_builtIn`). -/

namespace Overseer.Wildmatch

open Overseer.Path

/-! ## What the lines stand for -/

/-- A line of a list of patterns. -/
inductive Line where
  | empty
  | remark (text : String)
  /-- What has a name, and all that is below it. -/
  | name (text : String)
  /-- All that is below a directory with a name. -/
  | directory (text : String)
  /-- What has a name with a given end, and all that is below it. -/
  | ending (text : String)

/-- How a line is written. -/
def Line.text : Line → String
  | empty => ""
  | remark text => "#" ++ text
  | name text => text
  | directory text => text ++ "/"
  | ending text => "*" ++ text

/-- A character that stands for itself wherever it stands in a pattern. -/
def IsPlainChar (c : Char) : Prop := c.isAlphanum = true ∨ c ∈ ['.', '_', '-']

instance (c : Char) : Decidable (IsPlainChar c) := inferInstanceAs (Decidable (_ ∨ _))

/-- Characters that stand for themselves; a dot alone is not a name. -/
structure IsPlain (text : String) : Prop where
  ne_empty : text ≠ ""
  ne_dot : text ≠ "."
  chars : ∀ c ∈ text.toList, IsPlainChar c

instance (text : String) : Decidable (IsPlain text) :=
  decidable_of_iff (text ≠ "" ∧ text ≠ "." ∧ text.toList.all (fun c => IsPlainChar c) = true)
    ⟨fun ⟨hempty, hdot, hchars⟩ => ⟨hempty, hdot, by simpa using hchars⟩,
      fun h => ⟨h.1, h.2, by simpa using h.3⟩⟩

/-- A line without characters that have a meaning, its slash or star apart. -/
def Line.IsPlain : Line → Prop
  | empty | remark _ => True
  | name text | directory text | ending text => Wildmatch.IsPlain text

instance : ∀ line : Line, Decidable line.IsPlain
  | .empty | .remark _ => inferInstanceAs (Decidable True)
  | .name text | .directory text | .ending text =>
    inferInstanceAs (Decidable (Wildmatch.IsPlain text))

/-- The paths that a line selects, by the names on the way to them; the root has none. -/
def Line.Selects : Line → List String → Prop
  | empty, _ | remark _, _ => False
  | name text, names => text ∈ names
  | directory text, names => text ∈ names.dropLast
  | ending text, names => ∃ name ∈ names, text.toList <:+ name.toList

/-- A library reads lines about names as it is documented to do: it takes them all, and a path is
selected if and only if one of the lines selects it. -/
structure NamesRead (patterns : List String → Except Fault (String → Bool)) : Prop where
  reads : ∀ lines : List Line, (∀ line ∈ lines, line.IsPlain) →
    ∃ selects, patterns (lines.map Line.text) = .ok selects
  selects_iff : ∀ (lines : List Line) (selects : String → Bool), (∀ line ∈ lines, line.IsPlain) →
    patterns (lines.map Line.text) = .ok selects →
    ∀ names, (∀ name ∈ names, IsName name) → (∀ name ∈ names, '\n' ∉ name.toList) →
      (selects (Path.text ⟨.relative, names⟩) = true ↔ ∃ line ∈ lines, line.Selects names)

/-! ## Plain characters -/

theorem IsPlainChar.ne {c d : Char} (h : IsPlainChar c) (hd : ¬ IsPlainChar d) : c ≠ d :=
  fun heq => hd (heq ▸ h)

theorem IsPlainChar.not_blank {c : Char} (h : IsPlainChar c) : Text.isBlank c = false := by
  have hcode : c.toNat = 45 ∨ c.toNat = 46 ∨ (48 ≤ c.toNat ∧ c.toNat ≤ 122) := by
    rcases h with h | h
    · have hclass : (decide ('A'.val ≤ c.val ∧ c.val ≤ 'Z'.val) ||
          (decide ('a'.val ≤ c.val) && decide (c.val ≤ 'z'.val)) ||
          (decide ('0'.val ≤ c.val) && decide (c.val ≤ '9'.val))) = true := h
      simp only [Bool.or_eq_true, Bool.and_eq_true, decide_eq_true_eq,
        UInt32.le_iff_toNat_le] at hclass
      simp only [Char.toNat]
      have hcodes : 'A'.val.toNat = 65 ∧ 'Z'.val.toNat = 90 ∧ 'a'.val.toNat = 97 ∧
        'z'.val.toNat = 122 ∧ '0'.val.toNat = 48 ∧ '9'.val.toNat = 57 := by decide
      omega
    · simp only [List.mem_cons, List.not_mem_nil, or_false] at h
      rcases h with rfl | rfl | rfl <;> decide
  simp only [Text.isBlank, Bool.or_eq_false_iff, Bool.and_eq_false_iff, decide_eq_false_iff_not,
    beq_eq_false_iff_ne]
  omega

theorem IsPlain.no_slash {text : String} (h : IsPlain text) : '/' ∉ text.toList :=
  fun hmem => absurd (h.chars '/' hmem) (by decide)

/-! ## How the lines are read -/

/-- Characters that are read as a segment by themselves. -/
structure IsSegment (cs : List Char) (ps : List Piece) : Prop where
  kept : ∀ c ∈ cs, c ≠ '/' ∧ Text.isBlank c = false
  start : ∃ c rest, cs = c :: rest ∧ c ≠ '#' ∧ c ≠ '!'
  no_stars : cs ≠ deep ∧ cs ≠ ['*']
  read : segmentFrom 0 cs = .ok ps
  ranges : ps.any isReversed = false

theorem trimLine_eq_self {cs : List Char} (h : ∀ c ∈ cs, Text.isBlank c = false) :
    trimLine cs = cs := by
  have htrim : Text.trimEnd cs = cs := by
    rw [Text.trimEnd, Text.dropEndWhile]
    cases hrev : cs.reverse with
    | nil => simpa using hrev.symm
    | cons c rest =>
      have hmem : c ∈ cs := List.mem_reverse.1 (hrev ▸ List.mem_cons_self)
      rw [List.dropWhile_cons_of_neg (by simp [h c hmem]), ← hrev, List.reverse_reverse]
  rw [trimLine]
  split
  · rfl
  · exact htrim

theorem segmentFrom_plain {cs : List Char} (h : ∀ c ∈ cs, IsPlainChar c) :
    segmentFrom 0 cs = .ok (cs.map .char) := by
  induction cs with
  | nil => rfl
  | cons c cs ih =>
    obtain ⟨hc, hcs⟩ := List.forall_mem_cons.1 h
    rw [segmentFrom, ih hcs]
    · rfl
    all_goals exact hc.ne (by decide)

theorem isSegment_plain {text : String} (h : IsPlain text) :
    IsSegment text.toList (text.toList.map .char) := by
  obtain ⟨c, rest, hchars⟩ := List.exists_cons_of_ne_nil (mt String.toList_eq_nil_iff.1 h.ne_empty)
  have hc : IsPlainChar c := h.chars c (hchars ▸ List.mem_cons_self)
  have hstar : c ≠ '*' := hc.ne (by decide)
  refine ⟨fun d hd => ?_, ⟨c, rest, hchars, hc.ne (by decide), hc.ne (by decide)⟩, ?_,
    segmentFrom_plain h.chars, by simp [isReversed]⟩
  · exact ⟨(h.chars d hd).ne (by decide), (h.chars d hd).not_blank⟩
  · simp [hchars, deep, hstar]

theorem isSegment_ending {text : String} (h : IsPlain text) :
    IsSegment ('*' :: text.toList) (.run :: text.toList.map .char) := by
  obtain ⟨c, rest, hchars⟩ := List.exists_cons_of_ne_nil (mt String.toList_eq_nil_iff.1 h.ne_empty)
  have hstar : c ≠ '*' := (h.chars c (hchars ▸ List.mem_cons_self)).ne (by decide)
  refine ⟨?_, ⟨'*', _, rfl, by decide, by decide⟩, by simp [hchars, deep, hstar], ?_,
    by simp [isReversed]⟩
  · refine List.forall_mem_cons.2 ⟨by decide, fun d hd => ?_⟩
    exact ⟨(h.chars d hd).ne (by decide), (h.chars d hd).not_blank⟩
  · rw [segmentFrom, segmentFrom_plain h.chars]
    rfl

/-- A line that is neither trimmed nor a remark nor taken back is read by its segments. -/
theorem readRule_of_segments {line : List Char} {segments : List (List Char)} {ps : List Piece}
    (htrim : trimLine line = line)
    (hstart : ∃ c rest, line = c :: rest ∧ c ≠ '/' ∧ c ≠ '#' ∧ c ≠ '!')
    (hsplit : Text.splitAtChar '/' line = segments) (hstandard : standardSegments segments ≠ [])
    (hform : form (segments.getLast? = some []) (standardSegments segments) = .ok (.front ps))
    (hranges : ps.any isReversed = false) :
    readRule (String.ofList line) = .ok (some ⟨true, .front ps⟩) := by
  obtain ⟨c, rest, rfl, hslash, hhash, hbang⟩ := hstart
  rw [readRule, String.toList_ofList, htrim]
  simp only [List.isEmpty_cons, List.head?_cons, Option.some.injEq, hhash, hbang, List.cons.injEq,
    hslash, false_and, decide_false, Bool.or_false, Bool.false_eq_true, if_false, ne_eq,
    not_false_eq_true, decide_true, if_true, hsplit, hform, hranges,
    List.isEmpty_eq_false_iff.2 hstandard]

section Segment

variable {cs : List Char} {ps : List Piece} (h : IsSegment cs ps)
include h

theorem IsSegment.no_slash : '/' ∉ cs := fun hmem => (h.kept _ hmem).1 rfl

theorem IsSegment.begins : ∃ c rest, cs = c :: rest ∧ c ≠ '/' ∧ c ≠ '#' ∧ c ≠ '!' := by
  obtain ⟨c, rest, rfl, hremark, hback⟩ := h.start
  exact ⟨c, rest, rfl, (h.kept c List.mem_cons_self).1, hremark, hback⟩

theorem IsSegment.standard : standardSegments [cs] = [deep, cs] := by
  obtain ⟨c, rest, rfl, -⟩ := h.start
  simp [standardSegments, collapseDeep, h.no_stars.1]

theorem IsSegment.standard_below : standardSegments [cs, []] = [deep, cs, deep] := by
  obtain ⟨c, rest, rfl, -⟩ := h.start
  simp [standardSegments, collapseDeep, h.no_stars.1]

theorem IsSegment.segment : segment cs = .ok ps := by
  rw [Wildmatch.segment, if_neg h.no_stars.2, h.read]

theorem IsSegment.form :
    Wildmatch.form false [deep, cs] = .ok (.front (.directories :: (ps ++ [.stop]))) := by
  have hpieces : pieces [deep, cs] = .ok (.directories :: (ps ++ [.stop])) := by
    simp [pieces, laterPieces, h.no_stars.1, h.segment, bind, Except.bind, pure, Except.pure]
  have hstar : [deep, cs] ≠ [deep, ['*']] := fun heq => h.no_stars.2 (by simpa using heq)
  rw [Wildmatch.form, if_neg (by simp), if_neg hstar, if_neg (by simp), hpieces]
  rfl

theorem IsSegment.form_below :
    Wildmatch.form true [deep, cs, deep] =
      .ok (.front (.directories :: (ps ++ [.char '/']))) := by
  have hpieces : pieces [deep, cs, deep] = .ok (.directories :: (ps ++ [.char '/'])) := by
    simp [pieces, laterPieces, h.no_stars.1, h.segment, bind, Except.bind, pure, Except.pure]
  have hstar : [deep, cs, deep] ≠ [deep, ['*'], deep] :=
    fun heq => h.no_stars.2 (by simpa using heq)
  rw [Wildmatch.form, if_neg (by simp), if_neg (by simp), if_neg hstar, hpieces]
  rfl

theorem IsSegment.readRule : Wildmatch.readRule (String.ofList cs) =
    .ok (some ⟨true, .front (.directories :: (ps ++ [.stop]))⟩) := by
  refine readRule_of_segments (trimLine_eq_self fun c hc => (h.kept c hc).2) h.begins
    (Text.splitAtChar_of_not_mem h.no_slash) ?_ ?_ ?_
  · simp [h.standard]
  · obtain ⟨c, rest, hcs, -⟩ := h.start
    have hne : cs ≠ [] := by simp [hcs]
    rw [h.standard]
    simpa [hne] using h.form
  · simpa [isReversed] using h.ranges

theorem IsSegment.readRule_below : Wildmatch.readRule (String.ofList (cs ++ ['/'])) =
    .ok (some ⟨true, .front (.directories :: (ps ++ [.char '/']))⟩) := by
  obtain ⟨c, rest, hcs, hstart⟩ := h.begins
  have htrim : trimLine (cs ++ ['/']) = cs ++ ['/'] := by
    refine trimLine_eq_self fun d hd => ?_
    rcases List.mem_append.1 hd with hd | hd
    · exact (h.kept d hd).2
    · rw [List.mem_singleton.1 hd]
      decide
  have hsplit : Text.splitAtChar '/' (cs ++ ['/']) = [cs, []] := by
    rw [Text.splitAtChar_append, Text.splitAtChar_of_not_mem h.no_slash]
    rfl
  refine readRule_of_segments htrim ⟨c, rest ++ ['/'], by rw [hcs, List.cons_append], hstart⟩ hsplit
    ?_ ?_ ?_
  · simp [h.standard_below]
  · simpa [h.standard_below] using h.form_below
  · simpa [isReversed] using h.ranges

end Segment

/-! ## The built-in library -/

/-- The rule of a line, if it has one. -/
def Line.rule? : Line → Option Rule
  | empty | remark _ => none
  | name text => some (nameRule text)
  | directory text => some (directoryRule text)
  | ending text => some (endingRule text)

theorem trimEnd_cons {c : Char} (h : Text.isBlank c = false) (cs : List Char) :
    Text.trimEnd (c :: cs) = c :: Text.trimEnd cs := by
  simp only [Text.trimEnd, Text.dropEndWhile, List.reverse_cons, List.dropWhile_append]
  split
  · next hempty => simp [h, List.isEmpty_iff.1 hempty]
  · simp

theorem readRule_remark (text : String) : readRule ("#" ++ text) = .ok none := by
  have hchars : ("#" ++ text).toList = '#' :: text.toList := by simp
  obtain ⟨rest, htrim⟩ : ∃ rest, trimLine ('#' :: text.toList) = '#' :: rest := by
    rw [trimLine]
    split
    · exact ⟨_, rfl⟩
    · exact ⟨_, trimEnd_cons (by decide) _⟩
  rw [readRule, hchars, htrim]
  rfl

theorem readRule_text {line : Line} (h : line.IsPlain) : readRule line.text = .ok line.rule? := by
  cases line with
  | empty => rfl
  | remark text => exact readRule_remark text
  | name text =>
    have hread := (isSegment_plain h).readRule
    rwa [String.ofList_toList] at hread
  | directory text =>
    have hread := (isSegment_plain h).readRule_below
    have htext : String.ofList (text.toList ++ ['/']) = text ++ "/" := by
      simp
    rwa [htext] at hread
  | ending text =>
    have hread := (isSegment_ending h).readRule
    have htext : String.ofList ('*' :: text.toList) = "*" ++ text := by
      simp
    rwa [htext] at hread

theorem readRules_cons {line : String} {rule : Option Rule} {lines : List String}
    {rules : List Rule} (hline : readRule line = .ok rule) (hlines : readRules lines = .ok rules) :
    readRules (line :: lines) = .ok (rule.toList ++ rules) := by
  by_cases hempty : line = ""
  · -- an empty line is dropped before it is read, and has no rule either
    subst hempty
    obtain rfl : none = rule := Except.ok.inj hline
    rwa [readRules, List.filter_cons_of_neg (by simp)]
  · rw [readRules] at hlines ⊢
    rw [List.filter_cons_of_pos (by simpa using hempty), List.mapM_cons, hline]
    cases hread : (lines.filter (· ≠ "")).mapM readRule with
    | error e =>
      rw [hread] at hlines
      cases hlines
    | ok kept =>
      rw [hread] at hlines
      obtain rfl := Except.ok.inj hlines
      cases rule <;> rfl

theorem readRules_text {lines : List Line} (h : ∀ line ∈ lines, line.IsPlain) :
    readRules (lines.map Line.text) = .ok (lines.filterMap Line.rule?) := by
  induction lines with
  | nil => rfl
  | cons line lines ih =>
    obtain ⟨hline, hlines⟩ := List.forall_mem_cons.1 h
    rw [List.map_cons, readRules_cons (readRule_text hline) (ih hlines)]
    cases hrule : line.rule? <;> simp [hrule]

section Names

variable {names : List String} (hnames : ∀ name ∈ names, IsName name)
include hnames

/-- The text of a path seen from the root is matched as it is. -/
theorem normalizePath_text (hne : names ≠ []) :
    normalizePath (Path.text ⟨.relative, names⟩).toList = slashed names := by
  have htext : (Path.text ⟨.relative, names⟩).toList = slashed names := by
    simp [Path.text, hne, slashed, String.toList_intercalate, anchorText]
  obtain ⟨name, rest, rfl⟩ := List.exists_cons_of_ne_nil hne
  obtain ⟨hempty, hdot, hslash⟩ := hnames name (by simp)
  rw [htext, slashed_cons]
  cases hchars : name.toList with
  | nil => exact absurd (String.toList_eq_nil_iff.1 hchars) hempty
  | cons c cs =>
    rw [hchars, List.mem_cons, not_or] at hslash
    rw [List.cons_append]
    unfold normalizePath
    split
    · next h => exact absurd (List.cons_eq_cons.1 h).1.symm hslash.1
    · next h =>
      -- a dot and a slash would be a name that is just a dot
      obtain ⟨rfl, htail⟩ := List.cons_eq_cons.1 h
      cases cs with
      | nil => exact absurd (String.toList_inj.1 hchars) hdot
      | cons d cs =>
        have hd : d = '/' := (List.cons_eq_cons.1 htail).1
        exact absurd (by simp [hd]) hslash.2
    · rfl

end Names

/-- The text of the root is a dot, which is not plain and does not end in what is plain. -/
theorem not_applies_root {line : Line} (h : line.IsPlain) {r : Rule} (hr : line.rule? = some r) :
    r.applies (normalizePath (Path.text ⟨.relative, []⟩).toList) ≠ true := by
  have hroot : normalizePath (Path.text ⟨.relative, []⟩).toList = ".".toList ++ behind [] := rfl
  have hdirectories : ∀ ps, matchesFront (.directories :: ps) (".".toList ++ behind []) = true ↔
      matchesFront ps (".".toList ++ behind []) = true := by
    intro ps
    have hrests : Piece.directories.rests (".".toList ++ behind []) =
        [".".toList ++ behind []] := by
      decide
    rw [matchesFront_cons, hrests]
    simp only [List.mem_singleton, exists_eq_left]
  rw [hroot]
  intro happlies
  cases line with
  | empty => cases hr
  | remark text => cases hr
  | name text =>
    obtain rfl := Option.some.inj hr
    have hname := (matchesFront_name (by decide) (by decide) h.no_slash).1
      ((hdirectories _).1 happlies)
    exact h.ne_dot (String.toList_inj.1 hname).symm
  | directory text =>
    obtain rfl := Option.some.inj hr
    have hbelow := (matchesFront_directory (by decide) h.no_slash).1 ((hdirectories _).1 happlies)
    exact hbelow.2 rfl
  | ending text =>
    obtain rfl := Option.some.inj hr
    have hsuffix := (matchesFront_ending (by decide) (by decide) h.no_slash).1
      ((hdirectories _).1 happlies)
    rcases List.suffix_cons_iff.1 hsuffix with hdot | hnil
    · exact h.ne_dot (String.toList_inj.1 hdot)
    · exact h.ne_empty (String.toList_eq_nil_iff.1 (List.suffix_nil.1 hnil))

theorem applies_rule?_iff {names : List String} (hnames : ∀ name ∈ names, IsName name)
    (hlf : ∀ name ∈ names, '\n' ∉ name.toList) {line : Line} (h : line.IsPlain) {r : Rule}
    (hr : line.rule? = some r) :
    r.applies (normalizePath (Path.text ⟨.relative, names⟩).toList) = true ↔
      line.Selects names := by
  by_cases hne : names = []
  · subst hne
    refine iff_of_false (not_applies_root h hr) ?_
    cases line <;> simp [Line.Selects]
  rw [normalizePath_text hnames hne]
  cases line with
  | empty => cases hr
  | remark text => cases hr
  | name text =>
    obtain rfl := Option.some.inj hr
    exact applies_nameRule hne hnames hlf h.no_slash
  | directory text =>
    obtain rfl := Option.some.inj hr
    exact applies_directoryRule hne hnames hlf h.no_slash
  | ending text =>
    obtain rfl := Option.some.inj hr
    exact applies_endingRule hne hnames hlf h.no_slash

theorem builtIn_patterns {lines : List Line} (h : ∀ line ∈ lines, line.IsPlain) :
    Libraries.builtIn.patterns (lines.map Line.text) =
      .ok (selects (lines.filterMap Line.rule?)) := by
  have hread := readRules_text h
  simp only [Libraries.builtIn, hread]
  rfl

/-- The built-in library reads lines about names as is documented. -/
theorem namesRead_builtIn : NamesRead Libraries.builtIn.patterns where
  reads lines h := ⟨_, builtIn_patterns h⟩
  selects_iff lines selects h hread names hnames hlf := by
    obtain rfl := Except.ok.inj ((builtIn_patterns h).symm.trans hread)
    have hkept : ∀ r ∈ lines.filterMap Line.rule?, r.selects = true := by
      intro r hr
      obtain ⟨line, -, hrule⟩ := List.mem_filterMap.1 hr
      cases line <;> cases hrule <;> rfl
    rw [selects_iff hkept]
    constructor
    · rintro ⟨r, hr, happlies⟩
      obtain ⟨line, hmem, hrule⟩ := List.mem_filterMap.1 hr
      exact ⟨line, hmem, (applies_rule?_iff hnames hlf (h line hmem) hrule).1 happlies⟩
    · rintro ⟨line, hmem, hselects⟩
      obtain ⟨r, hrule⟩ : ∃ r, line.rule? = some r := by
        cases line with
        | empty => exact hselects.elim
        | remark text => exact hselects.elim
        | _ => exact ⟨_, rfl⟩
      exact ⟨r, List.mem_filterMap.2 ⟨line, hmem, hrule⟩,
        (applies_rule?_iff hnames hlf (h line hmem) hrule).2 hselects⟩

end Overseer.Wildmatch
