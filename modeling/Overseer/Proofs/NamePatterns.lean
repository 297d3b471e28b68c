import Overseer.Proofs.LineGrammar
import Overseer.Proofs.Paths
import Overseer.Wildmatch.Pattern

set_option autoImplicit false

/-! # Patterns of a single name

A pattern without an inner slash is about one name of a path, wherever it stands. What such a
pattern looks for begins with any directories, which are taken off a path exactly in front of its
names (`matchesFront_directories`). So whether it applies can be told from the names one by one: it
asks for a name, for a name with something below, or for the end of a name. -/

namespace Overseer.Wildmatch

open Overseer.Path

/-! ## Rules for a name -/

/-- The rule for a name at any depth. -/
def nameRule (name : String) : Rule :=
  ⟨true, .front (.directories :: (name.toList.map .char ++ [.stop]))⟩

/-- The rule for a name at any depth with something below. -/
def directoryRule (name : String) : Rule :=
  ⟨true, .front (.directories :: (name.toList.map .char ++ [.char '/']))⟩

/-- The rule for names with a given end at any depth. -/
def endingRule (ending : String) : Rule :=
  ⟨true, .front (.directories :: .run :: (ending.toList.map .char ++ [.stop]))⟩

/-! ## Pieces, one after the other -/

theorem mem_foldl_rests (ps : List Piece) (rests : List (List Char)) (rest : List Char) :
    rest ∈ ps.foldl (fun rests p => (rests.flatMap p.rests).eraseDups) rests ↔
      ∃ cs ∈ rests, rest ∈ restsAfter ps cs := by
  induction ps generalizing rests with
  | nil => simp [restsAfter]
  | cons p ps ih =>
    have hone : ∀ cs, restsAfter (p :: ps) cs =
        ps.foldl (fun rests p => (rests.flatMap p.rests).eraseDups) (p.rests cs).eraseDups := by
      intro cs
      rw [restsAfter, List.foldl_cons, List.flatMap_singleton]
    simp only [List.foldl_cons, hone, ih, List.mem_eraseDups, List.mem_flatMap]
    constructor
    · rintro ⟨mid, ⟨cs, hcs, hmid⟩, hrest⟩
      exact ⟨cs, hcs, mid, hmid, hrest⟩
    · rintro ⟨cs, hcs, mid, hmid, hrest⟩
      exact ⟨mid, ⟨cs, hcs, hmid⟩, hrest⟩

theorem matchesFront_nil (cs : List Char) : matchesFront [] cs = true := rfl

/-- Pieces match if all but the first match behind what the first one takes off. -/
theorem matchesFront_cons (p : Piece) (ps : List Piece) (cs : List Char) :
    matchesFront (p :: ps) cs = true ↔ ∃ mid ∈ p.rests cs, matchesFront ps mid = true := by
  have hsome : ∀ ps cs, matchesFront ps cs = true ↔ ∃ rest, rest ∈ restsAfter ps cs := by
    intro ps cs
    rw [matchesFront, Bool.not_eq_true', List.isEmpty_eq_false_iff_exists_mem]
  simp only [hsome]
  rw [restsAfter, List.foldl_cons, List.flatMap_singleton]
  simp only [mem_foldl_rests, List.mem_eraseDups]
  exact ⟨fun ⟨rest, mid, hmid, hrest⟩ => ⟨mid, hmid, rest, hrest⟩,
    fun ⟨mid, hmid, rest, hrest⟩ => ⟨rest, mid, hmid, hrest⟩⟩

theorem mem_oneRest (p : Char → Bool) (cs rest : List Char) :
    rest ∈ oneRest p cs ↔ ∃ c, cs = c :: rest ∧ p c = true := by
  cases cs with
  | nil => simp [oneRest]
  | cons c cs =>
    rw [oneRest]
    split
    · next hp =>
      rw [List.mem_singleton]
      constructor
      · rintro rfl
        exact ⟨c, rfl, hp⟩
      · rintro ⟨_, h, -⟩
        exact (List.cons_eq_cons.1 h).2.symm
    · next hp =>
      refine iff_of_false List.not_mem_nil ?_
      rintro ⟨c', h, hp'⟩
      exact hp ((List.cons_eq_cons.1 h).1 ▸ hp')

theorem matchesFront_char (c : Char) (ps : List Piece) (cs : List Char) :
    matchesFront (.char c :: ps) cs = true ↔
      ∃ rest, cs = c :: rest ∧ matchesFront ps rest = true := by
  rw [matchesFront_cons]
  simp only [Piece.rests, mem_oneRest, beq_iff_eq]
  constructor
  · rintro ⟨rest, ⟨c', rfl, rfl⟩, h⟩
    exact ⟨rest, rfl, h⟩
  · rintro ⟨rest, rfl, h⟩
    exact ⟨rest, ⟨c, rfl, rfl⟩, h⟩

theorem matchesFront_chars (l : List Char) (ps : List Piece) (cs : List Char) :
    matchesFront (l.map .char ++ ps) cs = true ↔
      ∃ rest, cs = l ++ rest ∧ matchesFront ps rest = true := by
  induction l generalizing cs with
  | nil => simp
  | cons c l ih =>
    rw [List.map_cons, List.cons_append, matchesFront_char]
    simp only [ih]
    constructor
    · rintro ⟨-, rfl, rest, rfl, h⟩
      exact ⟨rest, rfl, h⟩
    · rintro ⟨rest, rfl, h⟩
      exact ⟨l ++ rest, rfl, rest, rfl, h⟩

theorem mem_runRests (cs rest : List Char) :
    rest ∈ runRests cs ↔ ∃ front, cs = front ++ rest ∧ '/' ∉ front := by
  induction cs with
  | nil => simp [runRests, eq_comm]
  | cons c cs ih =>
    rw [runRests, List.mem_cons]
    constructor
    · rintro (rfl | h)
      · exact ⟨[], rfl, List.not_mem_nil⟩
      · split at h
        · exact absurd h List.not_mem_nil
        · next hc =>
          obtain ⟨front, rfl, hfront⟩ := ih.1 h
          exact ⟨c :: front, rfl, by simp [Ne.symm hc, hfront]⟩
    · rintro ⟨front, h, hfront⟩
      cases front with
      | nil => exact .inl h.symm
      | cons d front =>
        obtain ⟨rfl, rfl⟩ := List.cons_eq_cons.1 h
        rw [List.mem_cons, not_or] at hfront
        rw [if_neg (Ne.symm hfront.1)]
        exact .inr (ih.2 ⟨front, rfl, hfront.2⟩)

theorem mem_directoryRests (begun : Bool) (cs rest : List Char) :
    rest ∈ directoryRests begun cs ↔
      ∃ front, cs = front ++ '/' :: rest ∧ '\n' ∉ front ∧ (begun = false → front ≠ []) := by
  induction cs generalizing begun with
  | nil => simp [directoryRests]
  | cons c cs ih =>
    rw [directoryRests, List.mem_append]
    constructor
    · rintro (h | h)
      · split at h
        · next hslash =>
          obtain ⟨rfl, rfl⟩ : begun = true ∧ c = '/' := by simpa using hslash
          rw [List.mem_singleton.1 h]
          exact ⟨[], rfl, by simp⟩
        · exact absurd h List.not_mem_nil
      · split at h
        · exact absurd h List.not_mem_nil
        · next hc =>
          obtain ⟨front, rfl, hfront, -⟩ := (ih true).1 h
          exact ⟨c :: front, rfl, by simp [Ne.symm hc, hfront]⟩
    · rintro ⟨front, h, hfront, hbegun⟩
      cases front with
      | nil =>
        obtain ⟨rfl, rfl⟩ := List.cons_eq_cons.1 h
        cases begun with
        | false => exact absurd rfl (hbegun rfl)
        | true => exact .inl (by simp)
      | cons d front =>
        obtain ⟨rfl, rfl⟩ := List.cons_eq_cons.1 h
        rw [List.mem_cons, not_or] at hfront
        rw [if_neg (Ne.symm hfront.1)]
        exact .inr ((ih true).2 ⟨front, rfl, hfront.2, by simp⟩)

theorem matchesFront_stop {cs : List Char} (h : '\n' ∉ cs) :
    matchesFront [.stop] cs = true ↔ ∀ c ∈ cs.head?, c = '/' := by
  rw [matchesFront_cons]
  simp only [matchesFront_nil, and_true, Piece.rests]
  cases cs with
  | nil => simp [stopRests]
  | cons c cs =>
    have hc : c ≠ '\n' := fun heq => h (by simp [heq])
    by_cases hslash : c = '/'
    · simp [stopRests, hslash]
    · simp [stopRests, hslash, hc]

/-! ## Names in a path -/

/-- A name ends where a slash or nothing follows. -/
theorem append_behind_eq_iff {name : String} (hname : '/' ∉ name.toList) (names : List String)
    {l rest : List Char} (hl : '/' ∉ l) :
    name.toList ++ behind names = l ++ rest ∧ (∀ c ∈ rest.head?, c = '/') ↔
      name.toList = l ∧ rest = behind names := by
  have hhead : ∀ c ∈ (behind names).head?, c = '/' := by
    cases names with
    | nil => simp [behind]
    | cons next names => simp [behind]
  have hspan : ∀ {cs : List Char}, '/' ∉ cs → ∀ c ∈ cs, (c != '/') = true := by
    intro cs hcs c hc
    exact bne_iff_ne.2 fun heq => hcs (heq ▸ hc)
  constructor
  · rintro ⟨heq, hrest⟩
    have hcut := (Output.span_eq_iff (· != '/') (l ++ rest) name.toList (behind names)).2
      ⟨heq.symm, hspan hname, by simpa using hhead⟩
    have hcut' := (Output.span_eq_iff (· != '/') (l ++ rest) l rest).2
      ⟨rfl, hspan hl, by simpa using hrest⟩
    have hsame := hcut.symm.trans hcut'
    exact ⟨congrArg Prod.fst hsame, (congrArg Prod.snd hsame).symm⟩
  · rintro ⟨rfl, rfl⟩
    exact ⟨rfl, hhead⟩

/-! ## What the rules select -/

section Rules

variable {names : List String}

/-- Directories end in front of a name. -/
theorem matchesFront_directories (hne : names ≠ []) (hnames : ∀ name ∈ names, IsName name)
    (hline : ∀ name ∈ names, '\n' ∉ name.toList) (ps : List Piece) :
    matchesFront (.directories :: ps) (slashed names) = true ↔
      ∃ front name back, names = front ++ name :: back ∧
        matchesFront ps (name.toList ++ behind back) = true := by
  rw [matchesFront_cons]
  simp only [Piece.rests, List.mem_cons, mem_directoryRests, ← slashed_cons]
  constructor
  · rintro ⟨mid, rfl | ⟨front, htext, -⟩, hmid⟩
    · obtain ⟨name, back, rfl⟩ := List.exists_cons_of_ne_nil hne
      exact ⟨[], name, back, rfl, hmid⟩
    · have hcut := splitAtChar_slashed hne hnames
      rw [htext, Text.splitAtChar_append] at hcut
      obtain ⟨before, after, rfl, -, hafter⟩ := List.map_eq_append_iff.1 hcut.symm
      obtain ⟨name, back, rfl⟩ : ∃ name back, after = name :: back := by
        refine List.exists_cons_of_ne_nil fun hnil => ?_
        rw [hnil] at hafter
        exact Text.splitAtChar_ne_nil _ _ hafter.symm
      refine ⟨before, name, back, rfl, ?_⟩
      rwa [slashed, hafter, Text.intercalate_splitAtChar]
  · rintro ⟨front, name, back, rfl, hmid⟩
    refine ⟨_, ?_, hmid⟩
    cases front with
    | nil => exact .inl rfl
    | cons first front =>
      refine .inr ⟨slashed (first :: front), slashed_append (by simp) (by simp), ?_, fun _ => ?_⟩
      · intro hlf
        rcases mem_slashed hlf with h | ⟨name', hname', h⟩
        · exact absurd h (by decide)
        · exact hline name' (List.mem_append_left _ hname') h
      · rw [slashed_cons]
        simpa using fun h => absurd h (hnames first (by simp)).ne_empty

theorem lf_not_mem_behind (hline : ∀ name ∈ names, '\n' ∉ name.toList) : '\n' ∉ behind names := by
  cases names with
  | nil => exact List.not_mem_nil
  | cons name names =>
    rw [behind, List.mem_cons, not_or]
    · refine ⟨by decide, fun h => ?_⟩
      rcases mem_slashed h with h | ⟨name', hname', h⟩
      · exact absurd h (by decide)
      · exact hline name' hname' h
    · simp

/-- The characters of a name with a slash or the end behind them. -/
theorem matchesFront_name {name : String} (hname : '/' ∉ name.toList)
    (hlf : '\n' ∉ name.toList ++ behind names) {l : List Char} (hl : '/' ∉ l) :
    matchesFront (l.map .char ++ [.stop]) (name.toList ++ behind names) = true ↔
      name.toList = l := by
  rw [matchesFront_chars]
  constructor
  · rintro ⟨rest, htext, hstop⟩
    have hrest : '\n' ∉ rest := fun h => hlf (htext ▸ List.mem_append_right l h)
    exact ((append_behind_eq_iff hname names hl).1 ⟨htext, (matchesFront_stop hrest).1 hstop⟩).1
  · rintro rfl
    have hrest : '\n' ∉ behind names := fun h => hlf (List.mem_append_right _ h)
    refine ⟨behind names, rfl, (matchesFront_stop hrest).2 ?_⟩
    exact ((append_behind_eq_iff hname names hl).2 ⟨rfl, rfl⟩).2

/-- The characters of a name with a slash behind them. -/
theorem matchesFront_directory {name : String} (hname : '/' ∉ name.toList) {l : List Char}
    (hl : '/' ∉ l) :
    matchesFront (l.map .char ++ [.char '/']) (name.toList ++ behind names) = true ↔
      name.toList = l ∧ names ≠ [] := by
  rw [matchesFront_chars]
  constructor
  · rintro ⟨rest, htext, hslash⟩
    obtain ⟨rest', rfl, -⟩ := (matchesFront_char ..).1 hslash
    obtain ⟨hname, hrest⟩ := (append_behind_eq_iff hname names hl).1 ⟨htext, by simp⟩
    refine ⟨hname, ?_⟩
    rintro rfl
    exact absurd hrest (by simp [behind])
  · rintro ⟨rfl, hne⟩
    obtain ⟨next, names, rfl⟩ := List.exists_cons_of_ne_nil hne
    exact ⟨_, rfl, (matchesFront_char ..).2 ⟨_, rfl, rfl⟩⟩

/-- Any characters with the end of a name behind them. -/
theorem matchesFront_ending {name : String} (hname : '/' ∉ name.toList)
    (hlf : '\n' ∉ name.toList ++ behind names) {l : List Char} (hl : '/' ∉ l) :
    matchesFront (.run :: (l.map .char ++ [.stop])) (name.toList ++ behind names) = true ↔
      l <:+ name.toList := by
  have hfront : ∀ front, '/' ∉ front →
      (matchesFront ((front ++ l).map .char ++ [.stop]) (name.toList ++ behind names) = true ↔
        name.toList = front ++ l) := by
    intro front hfront
    exact matchesFront_name hname hlf (by simp [hfront, hl])
  rw [matchesFront_cons]
  simp only [Piece.rests, mem_runRests]
  constructor
  · rintro ⟨mid, ⟨front, htext, hslash⟩, hmid⟩
    refine ⟨front, ((hfront front hslash).1 ?_).symm⟩
    rw [List.map_append, List.append_assoc, matchesFront_chars]
    exact ⟨mid, htext, hmid⟩
  · rintro ⟨front, htext⟩
    have hslash : '/' ∉ front := fun h => hname (htext ▸ List.mem_append_left l h)
    have hmatch := (hfront front hslash).2 htext.symm
    rw [List.map_append, List.append_assoc, matchesFront_chars] at hmatch
    obtain ⟨mid, hmid, hmatch⟩ := hmatch
    exact ⟨mid, ⟨front, hmid, hslash⟩, hmatch⟩

variable (hne : names ≠ []) (hnames : ∀ name ∈ names, IsName name)
  (hline : ∀ name ∈ names, '\n' ∉ name.toList)
include hne hnames hline

/-- A rule that starts with any directories applies if and only if what follows them matches in
front of a name. -/
theorem applies_iff {ps : List Piece} {P : String → List String → Prop}
    (h : ∀ name back, '/' ∉ name.toList → '\n' ∉ name.toList ++ behind back →
      (matchesFront ps (name.toList ++ behind back) = true ↔ P name back)) :
    Rule.applies ⟨true, .front (.directories :: ps)⟩ (slashed names) = true ↔
      ∃ front name back, names = front ++ name :: back ∧ P name back := by
  rw [Rule.applies, matchesFront_directories hne hnames hline]
  refine exists_congr fun front => exists_congr fun name => exists_congr fun back =>
    and_congr_right fun hsplit => h name back (hnames name (by simp [hsplit])).no_slash ?_
  rw [List.mem_append, not_or]
  refine ⟨hline name (by simp [hsplit]), lf_not_mem_behind fun name' hname' => ?_⟩
  exact hline name' (by simp [hsplit, hname'])

theorem applies_nameRule {name : String} (hname : '/' ∉ name.toList) :
    (nameRule name).applies (slashed names) = true ↔ name ∈ names := by
  rw [nameRule, applies_iff hne hnames hline fun name' back hname' hlf =>
    matchesFront_name hname' hlf hname, List.mem_iff_append]
  simp only [String.toList_inj]
  constructor
  · rintro ⟨front, _, back, rfl, rfl⟩
    exact ⟨front, back, rfl⟩
  · rintro ⟨front, back, rfl⟩
    exact ⟨front, name, back, rfl, rfl⟩

/-- The last name has nothing below. -/
theorem applies_directoryRule {name : String} (hname : '/' ∉ name.toList) :
    (directoryRule name).applies (slashed names) = true ↔ name ∈ names.dropLast := by
  rw [directoryRule, applies_iff hne hnames hline fun name' back hname' _ =>
    matchesFront_directory hname' hname]
  simp only [String.toList_inj]
  constructor
  · rintro ⟨front, _, back, rfl, rfl, hback⟩
    rw [List.dropLast_append_of_ne_nil (by simp), List.dropLast_cons_of_ne_nil hback]
    simp
  · intro hmem
    obtain ⟨front, back, hsplit⟩ := List.mem_iff_append.1 hmem
    refine ⟨front, name, back ++ [names.getLast hne], ?_, rfl, by simp⟩
    rw [← List.cons_append, ← List.append_assoc, ← hsplit, List.dropLast_concat_getLast]

theorem applies_endingRule {ending : String} (hending : '/' ∉ ending.toList) :
    (endingRule ending).applies (slashed names) = true ↔
      ∃ name ∈ names, ending.toList <:+ name.toList := by
  rw [endingRule, applies_iff hne hnames hline fun name back hname hlf =>
    matchesFront_ending hname hlf hending]
  constructor
  · rintro ⟨front, name, back, rfl, hsuffix⟩
    exact ⟨name, by simp, hsuffix⟩
  · rintro ⟨name, hmem, hsuffix⟩
    obtain ⟨front, back, rfl⟩ := List.mem_iff_append.1 hmem
    exact ⟨front, name, back, rfl, hsuffix⟩

end Rules

/-- If no pattern takes paths back, a list selects what one of its patterns applies to. -/
theorem selects_iff {rules : List Rule} (h : ∀ r ∈ rules, r.selects = true) (path : String) :
    selects rules path = true ↔
      ∃ r ∈ rules, r.applies (normalizePath path.toList) = true := by
  have hfold : ∀ selected, rules.foldl (fun selected r =>
      if r.applies (normalizePath path.toList) then r.selects else selected) selected =
        (selected || rules.any fun r => r.applies (normalizePath path.toList)) := by
    induction rules with
    | nil => simp
    | cons r rules ih =>
      obtain ⟨hr, hrules⟩ := List.forall_mem_cons.1 h
      intro selected
      rw [List.foldl_cons, ih hrules, hr, List.any_cons]
      cases r.applies (normalizePath path.toList) <;> cases selected <;> rfl
  rw [selects, hfold, Bool.false_or, List.any_eq_true]

end Overseer.Wildmatch
