import Mathlib.Data.List.Basic
import Overseer.CommandLine.Report
import Overseer.Proofs.LineGrammar

set_option autoImplicit false

/-! # Lines of the command line that can be read back

What the command line shows of a diagnostic has the form of a line of the checker's report, with a
start and no end. If the place has no colon in it, the line has its first colon behind the place, so
it can be cut there only (`cut_of_shown`), whatever the message says. And a message that does not
end in an error code does not do so behind another severity word either, so message and code are
found as they were. The number of digits does not matter, since a number that has been read has no
more digits than can be read again. -/

namespace Overseer

/-! ## Numerals -/

namespace Text

theorem digitValue?_lt {c : Char} {n : Nat} (h : digitValue? c = some n) : n < 10 := by
  unfold digitValue? at h
  split at h
  · split at h
    · next hdigit =>
      cases h
      simp only [Char.isDigit, Bool.and_eq_true, decide_eq_true_eq,
        UInt32.le_iff_toNat_le] at hdigit
      have hle : c.toNat ≤ 57 := hdigit.2
      omega
    · exact absurd h (by simp)
  · obtain ⟨z, hz, rfl⟩ := Option.map_eq_some_iff.1 h
    have hrange := List.find?_some hz
    simp only [Bool.and_eq_true, decide_eq_true_eq] at hrange
    omega

theorem digitValue?_of_isDigit {c : Char} (h : c.isDigit = true) :
    digitValue? c = some (c.toNat - 48) := by
  have hlt : c.toNat < 128 := by
    simp only [Char.isDigit, Bool.and_eq_true, decide_eq_true_eq, UInt32.le_iff_toNat_le] at h
    exact Nat.lt_of_le_of_lt h.2 (by decide)
  rw [digitValue?, if_pos hlt, if_pos h]

/-- A numeral stands for its number. -/
theorem valueOfDigits_toDigits (n : Nat) : valueOfDigits (Nat.toDigits 10 n) = n := by
  have hdigits : ∀ d ∈ Nat.toDigits 10 n, d.isDigit = true := fun d hd =>
    Nat.isDigit_of_mem_toDigits (by decide) (by decide) hd
  calc valueOfDigits (Nat.toDigits 10 n)
      = Nat.ofDigitChars 10 (Nat.toDigits 10 n) 0 := by
        refine List.foldl_ext _ _ _ fun value d hd => ?_
        rw [digitValue?_of_isDigit (hdigits d hd)]
        rfl
    _ = n := Nat.ofDigitChars_toDigits (by decide) (by decide)

end Text

namespace Output

open Text

/-- A number is bounded by its digits. -/
theorem number_lt (ds : List Char) : number ds < 10 ^ ds.length := by
  have h := Nat.ofDigits_lt_base_pow_length (b := 10)
    (l := ds.reverse.map fun d => (digitValue? d).getD 0) (by decide) fun n hn => by
      obtain ⟨d, -, rfl⟩ := List.mem_map.1 hn
      cases hd : digitValue? d with
      | none => exact Nat.zero_lt_succ 9
      | some n => exact digitValue?_lt hd
  rwa [List.length_map, List.length_reverse] at h

theorem number_toDigits (n : Nat) : number (Nat.toDigits 10 n) = n := by
  rw [← valueOfDigits_eq_number, valueOfDigits_toDigits]

theorem fromZero_succ (n : Nat) : fromZero (n + 1) = n := by
  simp only [fromZero]
  omega

/-- Positions that have been read can be written, counted from one, and read again. -/
theorem exists_startOf {ns : List Nat} {b : Nat} (hb : 1 < b) (hns : ∀ n ∈ ns, n < b) :
    ∃ line column : Nat, startOf ns = (↑line, ↑column) ∧ line + 1 < b ∧ column + 1 < b := by
  have hzero : ∀ n ∈ ns, ∃ m : Nat, fromZero n = m ∧ m + 1 < b := by
    intro n hn
    have := hns n hn
    exact ⟨n - 1, by simp only [fromZero]; omega, by omega⟩
  unfold startOf
  split
  · exact ⟨0, 0, rfl, by omega, by omega⟩
  · next l =>
    obtain ⟨m, hm, hlt⟩ := hzero l (by simp)
    exact ⟨m, 0, by rw [hm]; rfl, hlt, by omega⟩
  · next l el ec =>
    obtain ⟨m, hm, hlt⟩ := hzero l (by simp)
    exact ⟨m, 0, by rw [hm]; rfl, hlt, by omega⟩
  · next l c rest _ =>
    obtain ⟨m, hm, hlt⟩ := hzero l (by simp)
    obtain ⟨m', hm', hlt'⟩ := hzero c (by simp)
    exact ⟨m, m', by rw [hm, hm'], hlt, hlt'⟩

end Output

/-! ## What is shown -/

namespace CommandLine

open Output

/-- A message with its error code, if there is one. -/
def messageText (message : String) (code : Option String) : String :=
  match code with
  | some code => if code.isEmpty then message else message ++ "  [" ++ code ++ "]"
  | none => message

/-- A diagnostic as a line, without the line feed that ends it; positions count from one. -/
def diagnosticText (place : String) (d : Diagnostic) : String :=
  place ++ ":" ++ toString (d.range.startLine + 1) ++ ":" ++ toString (d.range.startColumn + 1) ++
    ": " ++ d.severity.name ++ ": " ++ messageText d.message d.code

theorem diagnosticLine_eq (place : String) (d : Diagnostic) :
    diagnosticLine place d = diagnosticText place d ++ "\n" := by
  have hcode : messageText d.message d.code = d.message ++ (match d.code with
      | some code => if code.isEmpty then "" else s!"  [{code}]"
      | none => "") := by
    unfold messageText
    split
    · split
      · exact String.append_empty.symm
      · simp only [String.append_assoc]
        rfl
    · exact String.append_empty.symm
  rw [diagnosticText, hcode, diagnosticLine]
  simp only [String.append_assoc]
  rfl

/-- Message and code make up the body of the line. -/
theorem toList_messageText {file : List Char} {t : Tail} {f : Finding} (h : Says file t f) :
    (messageText f.message f.code).toList = t.body := by
  rcases h.body with ⟨message, code, hcode, hmessage, hf⟩ | ⟨-, hmessage, hf⟩
  · have hne : (String.ofList code).isEmpty = false := by
      simp [hcode.ne_nil]
    rw [hmessage, hf, messageText, if_neg (by simp [hne]), hcode.text]
    simp
  · rw [hmessage, hf, messageText, String.toList_ofList]

/-- What stands behind the place of a diagnostic. -/
def shownTail (line column : Nat) (severity : Severity) (body : List Char) : Tail :=
  ⟨[Nat.toDigits 10 (line + 1), Nat.toDigits 10 (column + 1)], severity.name.toList, body⟩

theorem proper_shownTail (line column : Nat) (severity : Severity) (body : List Char) :
    (shownTail line column severity body).Proper := by
  have hdigits : ∀ n, Nat.toDigits 10 n ≠ [] ∧ ∀ d ∈ Nat.toDigits 10 n, Text.isDigit d = true :=
    fun n => ⟨Nat.toDigits_ne_nil, fun d hd =>
      Text.isDigit_of_isDigit_ascii (Nat.isDigit_of_mem_toDigits (by decide) (by decide) hd)⟩
  refine ⟨by simp [shownTail], ?_, ?_⟩
  · rintro ds hds
    simp only [shownTail, List.mem_cons, List.not_mem_nil, or_false] at hds
    rcases hds with rfl | rfl
    · exact hdigits _
    · exact hdigits _
  · have hname : severity.name.toList ≠ [] ∧ severity.name.toList.all Text.isWord = true := by
      cases severity <;> decide
    exact ⟨hname.1, List.all_eq_true.1 hname.2⟩

theorem toList_diagnosticText {place : String} {f : Finding} {line column : Nat} {body : List Char}
    (hline : f.line = line) (hcolumn : f.column = column)
    (hbody : (messageText f.message f.code).toList = body) :
    (diagnosticText place (.ofFinding f)).toList =
      place.toList ++ (shownTail line column (.ofWord f.severity) body).text := by
  have hnumber : ∀ n : Nat, ((n : Int) + 1).repr.toList = Nat.toDigits 10 (n + 1) := fun n =>
    Nat.toList_repr
  simp [diagnosticText, Diagnostic.ofFinding, hline, hcolumn, hnumber, hbody, shownTail, Tail.text]

/-- No line feed is shown but one in the message. -/
theorem newline_notMem_shownTail {line column : Nat} {severity : Severity} {body : List Char}
    (h : '\n' ∉ body) : '\n' ∉ (shownTail line column severity body).text := by
  have hdigits : ∀ n, '\n' ∉ Nat.toDigits 10 n := fun n hn =>
    absurd (Nat.isDigit_of_mem_toDigits (by decide) (by decide) hn) (by decide)
  have hname : '\n' ∉ severity.name.toList := by
    cases severity <;> decide
  simp [shownTail, Tail.text, hdigits, hname, h]

end CommandLine

namespace Output

/-- The text behind a file starts with a colon. -/
theorem Tail.exists_text (t : Tail) : ∃ rest, t.text = ':' :: rest := by
  rw [text]
  cases t.numbers with
  | nil => exact ⟨_, rfl⟩
  | cons ds numbers => exact ⟨_, rfl⟩

/-- Behind a file without a colon a line is cut at its first colon. -/
theorem cut_append {file : List Char} {t : Tail} (hne : file ≠ []) (hcolon : ':' ∉ file)
    (ht : t.Proper) : Cut (file ++ t.text) file t := by
  refine ⟨⟨rfl, hne, ht⟩, fun file' t' hlayout => ?_⟩
  rcases List.append_eq_append_iff.1 hlayout.text with ⟨more, rfl, -⟩ | ⟨more, rfl, hmore⟩
  · simp
  · -- the longer file has a colon where the shorter one ends
    obtain ⟨rest, hrest⟩ := t'.exists_text
    cases more with
    | nil => simp
    | cons c more =>
      rw [hrest] at hmore
      cases hmore
      exact absurd hcolon (by simp)

end Output

namespace CommandLine

open Output

/-- What the shown line says: the place, the start twice, and message and code as they were. -/
theorem says_shownTail {file : List Char} {t : Tail} {f : Finding} (h : Says file t f)
    (place : String) (line column : Nat) :
    Says place.toList (shownTail line column (.ofWord f.severity) t.body)
      { file := place, line, column, endLine := line, endColumn := column
        severity := (Severity.ofWord f.severity).name, message := f.message, code := f.code } := by
  have hnumbers : (shownTail line column (.ofWord f.severity) t.body).numbers.map number =
      [line + 1, column + 1] := by
    simp [shownTail, number_toDigits]
  refine ⟨by simp, by simp [shownTail], ?_, ?_, h.body, rfl⟩
  · rw [hnumbers]
    simp [startOf, fromZero_succ]
  · rw [hnumbers]
    simp [endOf?]

/-- Other words than those of errors and warnings are renamed, and the new word informs, too. -/
theorem ofWord_name_ofWord (word : String) :
    Severity.ofWord (Severity.ofWord word).name = Severity.ofWord word := by
  have hname : ∀ s : Severity, s ≠ .hint → Severity.ofWord s.name = s := by
    intro s hs
    cases s with
    | hint => exact absurd rfl hs
    | _ => rfl
  refine hname _ ?_
  unfold Severity.ofWord
  split <;> simp

/-- Positions that have been read are small enough to be read again when they count from one. -/
theorem exists_position {file : List Char} {t : Tail} {f : Finding} (h : Says file t f)
    (hread : ∀ ds ∈ t.numbers, ds.length ≤ 4300) : ∃ line column : Nat, f.line = line ∧
      f.column = column ∧ ∀ severity body, ∀ ds ∈ (shownTail line column severity body).numbers,
        ds.length ≤ 4300 := by
  have hsmall : ∀ n ∈ t.numbers.map number, n < 10 ^ Text.maxDigits := by
    intro n hn
    obtain ⟨ds, hds, rfl⟩ := List.mem_map.1 hn
    exact (number_lt ds).trans_le (Nat.pow_le_pow_right (by decide) (hread ds hds))
  obtain ⟨line, column, hstart, hline, hcolumn⟩ :=
    exists_startOf (Nat.one_lt_pow (by decide) (by decide)) hsmall
  obtain ⟨hl, hc⟩ := Prod.mk.inj (h.start.trans hstart)
  refine ⟨line, column, hl, hc, fun severity body ds hds => ?_⟩
  simp only [shownTail, List.mem_cons, List.not_mem_nil, or_false] at hds
  rcases hds with rfl | rfl
  · exact Nat.toDigits_length 10 _ Text.maxDigits (by decide) hline
  · exact Nat.toDigits_length 10 _ Text.maxDigits (by decide) hcolumn

/-- What was read from one line is read again from the line that is shown of it, with an end that is
its start, with the place that is shown, and with a severity that is filed like the old one. -/
theorem shown_line_reads_back {text : String} (htext : '\n' ∉ text.toList) {f : Finding}
    (hf : parseLine text = .ok (some f)) {place : String} (hne : place ≠ "")
    (hcolon : ':' ∉ place.toList) (hplace : '\n' ∉ place.toList) :
    diagnosticLine place (.ofFinding f) = diagnosticText place (.ofFinding f) ++ "\n" ∧
      ∃ f', parseLine (diagnosticText place (.ofFinding f)) = .ok (some f') ∧ f'.file = place ∧
        (f'.line, f'.column) = (f.line, f.column) ∧
        (f'.endLine, f'.endColumn) = (f.line, f.column) ∧
        f'.message = f.message ∧ f'.code = f.code ∧
        (Diagnostic.ofFinding f').severity = (Diagnostic.ofFinding f).severity := by
  refine ⟨diagnosticLine_eq _ _, ?_⟩
  obtain ⟨cs, file, t, hcs, hcut, hread, hsaid⟩ := (parseLine_eq_some_iff text f).1 hf
  obtain ⟨line, column, hline, hcolumn, hnumerals⟩ := exists_position hsaid hread
  obtain rfl := Option.some.inj ((oneLine?_of_not_mem htext).symm.trans hcs)
  have hbody : '\n' ∉ t.body := by
    rw [hcut.text] at htext
    exact fun hmem => htext (by simp [Tail.text, hmem])
  have hshown : (diagnosticText place (.ofFinding f)).toList = _ :=
    toList_diagnosticText hline hcolumn (toList_messageText hsaid)
  have hlf : '\n' ∉ (diagnosticText place (.ofFinding f)).toList := by
    rw [hshown, List.mem_append, not_or]
    exact ⟨hplace, newline_notMem_shownTail hbody⟩
  have hcut' : Cut (diagnosticText place (.ofFinding f)).toList place.toList
      (shownTail line column (.ofWord f.severity) t.body) := by
    rw [hshown]
    exact cut_append (by simpa using hne) hcolon (proper_shownTail _ _ _ _)
  refine ⟨_, (parseLine_eq_some_iff _ _).2 ⟨_, _, _, oneLine?_of_not_mem hlf, hcut',
    hnumerals _ _, says_shownTail hsaid place line column⟩, rfl, ?_, ?_, rfl, rfl,
    ofWord_name_ofWord f.severity⟩
  · rw [hline, hcolumn]
  · rw [hline, hcolumn]

/-- The file has a colon, and the message looks like the rest of a line with two codes. -/
theorem shown_line_reads_back_of_note :
    ∃ f f', parseLine "a: b.py:3:9:4:1: note: Try: error: x  [a]  [b-c]" = .ok (some f) ∧
      f.message = "Try: error: x  [a]" ∧ (Diagnostic.ofFinding f).severity = .information ∧
      diagnosticText "n.ipynb#cell2" (.ofFinding f) =
        "n.ipynb#cell2:3:9: information: Try: error: x  [a]  [b-c]" ∧
      parseLine (diagnosticText "n.ipynb#cell2" (.ofFinding f)) = .ok (some f') ∧
      f'.file = "n.ipynb#cell2" ∧ (f'.endLine, f'.endColumn) = (2, 8) ∧
      f'.message = f.message ∧ f'.code = some "b-c" := by
  have hread : parseLine "a: b.py:3:9:4:1: note: Try: error: x  [a]  [b-c]" = .ok (some {
      file := "a: b.py", line := 2, column := 8, endLine := 3, endColumn := 0,
      severity := "note", message := "Try: error: x  [a]", code := some "b-c" }) := by
    decide +kernel
  obtain ⟨-, f', hparse, hfile, -, hstop, hmessage, hcode, -⟩ :=
    shown_line_reads_back (by decide) hread (show "n.ipynb#cell2" ≠ "" by decide) (by decide)
      (by decide)
  exact ⟨_, f', hread, rfl, rfl, by decide +kernel, hparse, hfile, hstop, hmessage, hcode⟩

end CommandLine

end Overseer
