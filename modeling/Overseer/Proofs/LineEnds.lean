import Overseer.Output.Report
import Overseer.Proofs.Encoding

set_option autoImplicit false

/-! # Line ends

The output of a program may end its lines in three ways. Line ends are looked at three times: when
the bytes become a text, when the text is cut into lines, and when carriage returns are dropped from
a line. The three agree on the lines, but not on the number of empty ones: a line that ends with a
carriage return and an empty line that ends with a line feed behind it are, written down, one line
and its end. What all three keep is the lines that are not empty (`filledFrom`), and an empty line
says nothing (`parseLines_filter_ne_empty`). -/

namespace Overseer

namespace Text

/-! ## Lines written down -/

/-- The ways in which a line can end. -/
inductive LineEnd where
  | lf | crlf | cr
  deriving DecidableEq, Repr

/-- The characters of a line end. -/
def LineEnd.text : LineEnd → List Char
  | .lf => ['\n']
  | .crlf => ['\r', '\n']
  | .cr => ['\r']

/-- Lines, each with its end behind it. -/
def written (ls : List (String × LineEnd)) : List Char :=
  ls.flatMap fun l => l.1.toList ++ l.2.text

/-- The lines of a text that are not empty; `front` is what is known of the first one. -/
def filledFrom (front : List Char) : List Char → List (List Char)
  | [] => [front].filter (· ≠ [])
  | c :: cs =>
    if isBreak c then [front].filter (· ≠ []) ++ filledFrom [] cs else filledFrom (front ++ [c]) cs

theorem filledFrom_of_isBreak {c : Char} (hc : isBreak c = true) (front cs : List Char) :
    filledFrom front (c :: cs) = [front].filter (· ≠ []) ++ filledFrom [] cs := by
  rw [filledFrom, if_pos hc]

theorem filledFrom_append {l : List Char} (h : ∀ c ∈ l, isBreak c = false)
    (front cs : List Char) : filledFrom front (l ++ cs) = filledFrom (front ++ l) cs := by
  induction l generalizing front with
  | nil => rw [List.nil_append, List.append_nil]
  | cons c l ih =>
    obtain ⟨hc, hl⟩ := List.forall_mem_cons.1 h
    rw [List.cons_append, filledFrom, if_neg (by simp [hc]), ih hl, List.append_assoc,
      List.singleton_append]

/-- However a line ends, it is over. -/
theorem filledFrom_lineEnd (e : LineEnd) (front cs : List Char) :
    filledFrom front (e.text ++ cs) = [front].filter (· ≠ []) ++ filledFrom [] cs := by
  have hlf : isBreak '\n' = true := by decide
  have hcr : isBreak '\r' = true := by decide
  cases e with
  | lf => exact filledFrom_of_isBreak hlf front cs
  | cr => exact filledFrom_of_isBreak hcr front cs
  | crlf =>
    rw [LineEnd.text, List.cons_append, filledFrom_of_isBreak hcr, List.singleton_append,
      filledFrom_of_isBreak hlf]
    simp

theorem filledFrom_written {ls : List (String × LineEnd)}
    (h : ∀ l ∈ ls, ∀ c ∈ l.1.toList, isBreak c = false) :
    filledFrom [] (written ls) = (ls.map (·.1.toList)).filter (· ≠ []) := by
  induction ls with
  | nil => rfl
  | cons l ls ih =>
    obtain ⟨hl, hls⟩ := List.forall_mem_cons.1 h
    rw [written, List.flatMap_cons, List.append_assoc, filledFrom_append hl, filledFrom_lineEnd,
      ← written, ih hls, List.nil_append, List.map_cons, ← List.filter_append,
      List.singleton_append]

/-! ## Cutting a text into lines -/

theorem foldr_consFirst (front : List Char) (l : List Char) (ls : List (List Char)) :
    front.foldr consFirst (l :: ls) = (front ++ l) :: ls := by
  induction front with
  | nil => rfl
  | cons c front ih => rw [List.foldr_cons, ih, consFirst, List.cons_append]

/-- A text is cut into its lines, up to empty ones. -/
theorem filter_splitLines (front cs : List Char) :
    (front.foldr consFirst (splitLines cs)).filter (· ≠ []) = filledFrom front cs := by
  fun_induction splitLines cs generalizing front with
  | case1 =>
    cases front with
    | nil => rfl
    | cons c front =>
      have hone : (c :: front).foldr consFirst [] = [c :: front] := by
        induction front generalizing c with
        | nil => rfl
        | cons c' front ih => rw [List.foldr_cons, ih, consFirst]
      rw [hone, filledFrom]
  | case2 cs ih =>
    have hcrlf := filledFrom_lineEnd .crlf front cs
    rw [LineEnd.text, List.cons_append, List.singleton_append] at hcrlf
    rw [hcrlf, foldr_consFirst, List.append_nil, ← ih [], List.foldr_nil, ← List.filter_append,
      List.singleton_append]
  | case3 c cs _ hbreak ih =>
    rw [filledFrom_of_isBreak hbreak, foldr_consFirst, List.append_nil, ← ih [], List.foldr_nil,
      ← List.filter_append, List.singleton_append]
  | case4 c cs _ hbreak ih =>
    have hfront : front.foldr consFirst (consFirst c (splitLines cs)) =
        (front ++ [c]).foldr consFirst (splitLines cs) := by
      rw [List.foldr_append, List.foldr_cons, List.foldr_nil]
    rw [filledFrom, if_neg hbreak, ← ih, hfront]

theorem mem_consFirst {c x : Char} {ls : List (List Char)} {l : List Char}
    (hl : l ∈ consFirst c ls) (hx : x ∈ l) : x = c ∨ ∃ l' ∈ ls, x ∈ l' := by
  cases ls with
  | nil =>
    rw [consFirst, List.mem_singleton] at hl
    exact .inl (by simpa [hl] using hx)
  | cons first ls =>
    rcases List.mem_cons.1 hl with rfl | hl
    · exact (List.mem_cons.1 hx).imp_right fun hx => ⟨first, List.mem_cons_self, hx⟩
    · exact .inr ⟨l, List.mem_cons_of_mem first hl, hx⟩

/-- No line has a character at which lines end. -/
theorem isBreak_of_mem_splitLines {cs l : List Char} {x : Char} (hl : l ∈ splitLines cs)
    (hx : x ∈ l) : isBreak x = false := by
  fun_induction splitLines cs generalizing l with
  | case1 => exact absurd hl List.not_mem_nil
  | case2 cs ih =>
    rcases List.mem_cons.1 hl with rfl | hl
    · exact absurd hx List.not_mem_nil
    · exact ih hl hx
  | case3 c cs _ hbreak ih =>
    rcases List.mem_cons.1 hl with rfl | hl
    · exact absurd hx List.not_mem_nil
    · exact ih hl hx
  | case4 c cs _ hbreak ih =>
    rcases mem_consFirst hl hx with rfl | ⟨l', hl', hx'⟩
    · simpa using hbreak
    · exact ih hl' hx'

/-! ## One kind of line end for all -/

/-- The lines stay what they are, up to empty ones. -/
theorem filledFrom_normalizeNewlines (front cs : List Char) :
    filledFrom front (normalizeNewlines cs) = filledFrom front cs := by
  have hlf : isBreak '\n' = true := by decide
  fun_induction normalizeNewlines cs generalizing front with
  | case1 => rfl
  | case2 cs ih =>
    have hcrlf := filledFrom_lineEnd .crlf front cs
    rw [LineEnd.text, List.cons_append, List.singleton_append] at hcrlf
    rw [hcrlf, filledFrom_of_isBreak hlf, ih]
  | case3 c cs _ ih =>
    by_cases hc : c = '\r'
    · subst hc
      rw [if_pos rfl, filledFrom_of_isBreak hlf, filledFrom_of_isBreak (by decide), ih]
    · rw [if_neg hc, filledFrom, filledFrom, ih, ih]

theorem cr_not_mem_normalizeNewlines (cs : List Char) : '\r' ∉ normalizeNewlines cs := by
  fun_induction normalizeNewlines cs with
  | case1 => exact List.not_mem_nil
  | case2 cs ih => simpa using ih
  | case3 c cs _ ih =>
    rw [List.mem_cons, not_or]
    refine ⟨?_, ih⟩
    split
    · decide
    · next hc => exact Ne.symm hc

/-- First every carriage return with a line feed behind it becomes a line feed, then every other
carriage return. -/
theorem normalizeNewlines_eq_replaceFrom (cs : List Char) :
    normalizeNewlines cs =
      replaceFrom ['\r'] ['\n'] 0 (replaceFrom ['\r', '\n'] ['\n'] 0 cs) := by
  fun_induction normalizeNewlines cs with
  | case1 => rfl
  | case2 cs ih => simp [replaceFrom, ih]
  | case3 c cs hcrlf ih =>
    have hfront : ['\r', '\n'].isPrefixOf (c :: cs) = false := by
      rw [Bool.eq_false_iff]
      intro hprefix
      obtain ⟨rest, hrest⟩ := List.isPrefixOf_iff_prefix.1 hprefix
      obtain ⟨rfl, rfl⟩ := List.cons_eq_cons.1 hrest
      exact hcrlf rest rfl rfl
    rw [replaceFrom, hfront, if_neg Bool.false_ne_true, replaceFrom, ih]
    by_cases hc : c = '\r'
    · simp [hc]
    · simp [hc, Ne.symm hc]

/-- The bytes of a text are read as that text with one kind of line end. -/
theorem outputText_encode (cs : List Char) :
    outputText (encode cs) = String.ofList (normalizeNewlines cs) := by
  have hread : decodeLossy (encode cs) = cs := by
    rw [decodeLossy, decode_encode, List.map_map]
    exact List.map_id cs
  rw [outputText, hread]

end Text

namespace Output

open Text

/-! ## Empty lines -/

/-- Steps that lead to nothing can be left out. -/
theorem mapM_filter {α β ε : Type} {g : α → Except ε (Option β)} {p : α → Bool}
    (h : ∀ a, p a = false → g a = .ok none) (l : List α) :
    ((l.filter p).mapM g).map (List.filterMap id) = (l.mapM g).map (List.filterMap id) := by
  induction l with
  | nil => rfl
  | cons a l ih =>
    rw [List.mapM_cons]
    cases hp : p a with
    | false =>
      rw [List.filter_cons_of_neg (by simp [hp]), ih, h a hp]
      cases l.mapM g <;> rfl
    | true =>
      rw [List.filter_cons_of_pos hp, List.mapM_cons]
      cases g a with
      | error e => rfl
      | ok r =>
        cases hl : l.mapM g <;> cases hl' : (l.filter p).mapM g <;> rw [hl, hl'] at ih
        · exact ih
        · exact absurd ih (by simp [Except.map])
        · exact absurd ih (by simp [Except.map])
        · have hsame := Except.ok.inj ih
          cases r with
          | none => exact congrArg Except.ok hsame
          | some b => exact congrArg (fun bs => Except.ok (b :: bs)) hsame

theorem parseLines_filter_ne_empty (lines : List String) :
    parseLines (lines.filter (· ≠ "")) = parseLines lines := by
  have hsplit : ∀ lines, parseLines lines =
      ((lines.mapM fun line => parseLine (dropReturns line)).map (List.filterMap id)).map
        fun fs => (fs.foldl addFinding []).reverse.map withLink := by
    intro lines
    rw [parseLines]
    cases lines.mapM fun line => parseLine (dropReturns line) <;> rfl
  have hempty : ∀ line, decide (line ≠ "") = false → parseLine (dropReturns line) = .ok none := by
    intro line hline
    have hline' : line = "" := by simpa using hline
    rw [hline']
    rfl
  rw [hsplit, hsplit, mapM_filter hempty]

/-! ## Reports -/

/-- The lines of a program's output that are not empty are those that it has written. -/
theorem filter_lines_outputText {ls : List (String × LineEnd)}
    (h : ∀ l ∈ ls, ∀ c ∈ l.1.toList, isBreak c = false) :
    (lines (outputText (encode (written ls)))).filter (· ≠ "") =
      (ls.map (·.1)).filter (· ≠ "") := by
  have hcut := filter_splitLines [] (normalizeNewlines (written ls))
  rw [List.foldr_nil, filledFrom_normalizeNewlines, filledFrom_written h] at hcut
  have hempty : (fun s : String => decide (s ≠ "")) ∘ String.ofList =
      fun cs : List Char => decide (cs ≠ []) := by
    funext cs
    simp
  have hempty' :
      (fun cs : List Char => decide (cs ≠ [])) ∘ (fun l : String × LineEnd => l.1.toList) =
        (fun s : String => decide (s ≠ "")) ∘ fun l : String × LineEnd => l.1 := by
    funext l
    simp
  have htext : String.ofList ∘ (fun l : String × LineEnd => l.1.toList) = fun l => l.1 := by
    funext l
    exact String.ofList_toList
  rw [outputText_encode, lines, String.toList_ofList, List.filter_map, hempty, hcut,
    List.filter_map, hempty', List.map_map, htext, List.filter_map]

/-- However the lines of a report end, each one in its own way, the report says what its lines say:
line ends are recognized as they are written, and where two of them grow together an empty line is
lost, which says nothing. No text made of bytes has a carriage return: first those with a line feed
behind them are replaced, then all others. -/
theorem parse_outputText_written :
    (∀ ls : List (String × LineEnd), (∀ l ∈ ls, ∀ c ∈ l.1.toList, isBreak c = false) →
      parse (outputText (encode (written ls))) = parseLines (ls.map (·.1))) ∧
    ∀ bytes, '\r' ∉ (outputText bytes).toList ∧
      outputText bytes = replaceAll "\r" "\n"
        (replaceAll "\r\n" "\n" (String.ofList (decodeLossy bytes))) := by
  refine ⟨fun ls h => ?_, fun bytes => ⟨?_, ?_⟩⟩
  · calc parse (outputText (encode (written ls)))
      _ = parseLines ((lines (outputText (encode (written ls)))).filter (· ≠ "")) :=
        (parseLines_filter_ne_empty _).symm
      _ = parseLines ((ls.map (·.1)).filter (· ≠ "")) := by rw [filter_lines_outputText h]
      _ = parseLines (ls.map (·.1)) := parseLines_filter_ne_empty _
  · rw [outputText, String.toList_ofList]
    exact cr_not_mem_normalizeNewlines _
  · rw [outputText, normalizeNewlines_eq_replaceFrom]
    simp [replaceAll]

/-- The carriage return that ends the second line and the line feed that ends the empty one behind
it become one line end. -/
def grownTogether : List (String × LineEnd) :=
  [("a.py:1: note: x", .crlf), ("a.py:1: note: y", .cr), ("", .lf), ("a.py:2: error: z", .lf)]

theorem parse_outputText_written_grown_together :
    (lines (outputText (encode (written grownTogether)))).length = 3 ∧
      (parse (outputText (encode (written grownTogether)))).toOption.map
        (fun fs => fs.map (·.message)) = some ["x\ny", "z"] ∧
      '\r' ∉ (outputText (encode (written grownTogether))).toList := by
  have hall : (grownTogether.all fun l => l.1.toList.all fun c => !isBreak c) = true := by decide
  have hlines : ∀ l ∈ grownTogether, ∀ c ∈ l.1.toList, isBreak c = false := by
    simpa only [List.all_eq_true, Bool.not_eq_true'] using hall
  have hparse := parse_outputText_written.1 grownTogether hlines
  refine ⟨by decide, ?_, (parse_outputText_written.2 _).1⟩
  rw [hparse]
  decide +kernel

end Output

end Overseer
