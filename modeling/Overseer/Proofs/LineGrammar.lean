import Mathlib.Data.List.Induction
import Mathlib.Data.List.TakeDrop
import Mathlib.Data.List.TakeWhile
import Mathlib.Data.Nat.Digits.Defs
import Mathlib.Data.Prod.Lex
import Overseer.Output.Line
import Overseer.Proofs.Maps

set_option autoImplicit false

/-! # The grammar of the lines of a report

A line of the report is a statement of the checker if it can be written as a file, up to four
numbers each behind a colon, a severity word and a body (`Layout`). It may be possible to write it
so in several ways; what counts is the one with the shortest file (`Cut`). Behind a given file
there is only one way, because neither the numbers nor the word can be read further than to the
next colon: `tail?_eq_some_iff` says that the reader finds it. `splitFile?_eq_some_iff` then says
that going through the line finds the cut. -/

namespace Overseer.Output

open Overseer.Text

/-! ## How a line can be written -/

/-- The text behind the file. -/
def Tail.text (t : Tail) : List Char :=
  t.numbers.flatMap (':' :: ·) ++ ": ".toList ++ t.severity ++ ": ".toList ++ t.body

/-- Numbers and severity have the form that the report gives them. -/
structure Tail.Proper (t : Tail) : Prop where
  few : t.numbers.length ≤ 4
  digits : ∀ ds ∈ t.numbers, ds ≠ [] ∧ ∀ d ∈ ds, isDigit d = true
  severity : t.severity ≠ [] ∧ ∀ c ∈ t.severity, isWord c = true

/-- A line can be written as a file with a tail. -/
structure Layout (cs file : List Char) (t : Tail) : Prop where
  text : cs = file ++ t.text
  named : file ≠ []
  tail : t.Proper

/-- The way to write a line with the shortest file. -/
structure Cut (cs file : List Char) (t : Tail) : Prop extends Layout cs file t where
  shortest : ∀ file' t', Layout cs file' t' → file.length ≤ file'.length

/-- An error code in brackets, behind two blanks, ends a body. -/
structure EndsInCode (body message code : List Char) : Prop where
  text : body = message ++ "  [".toList ++ code ++ "]".toList
  ne_nil : code ≠ []
  chars : ∀ c ∈ code, isWord c = true ∨ c = '-'

/-- No number of a line has more digits than are read. -/
def Readable (line : String) : Prop :=
  ∀ cs file t, oneLine? line.toList = some cs → Cut cs file t →
    ∀ ds ∈ t.numbers, ds.length ≤ 4300

/-! ## What a line says -/

/-- The number that digits of any decimal scripts stand for. -/
def number (ds : List Char) : Nat :=
  Nat.ofDigits 10 (ds.reverse.map fun d => (digitValue? d).getD 0)

/-- A number of the report, counted from zero. -/
def fromZero (n : Nat) : Int := max ((n : Int) - 1) 0

/-- The start that the numbers of a line give, line and column. -/
def startOf : List Nat → Int × Int
  | [] => (0, 0)
  | [l] | [l, _, _] => (fromZero l, 0)
  | l :: c :: _ => (fromZero l, fromZero c)

/-- The end that the numbers of a line give. -/
def endOf? : List Nat → Option (Int × Int)
  | [_, el, ec] | [_, _, el, ec] => some (fromZero el, fromZero ec)
  | _ => none

/-- A finding is what a line with a given file and tail says. -/
structure Says (file : List Char) (t : Tail) (f : Finding) : Prop where
  file : f.file = String.ofList file
  severity : f.severity = String.ofList t.severity
  start : (f.line, f.column) = startOf (t.numbers.map number)
  /-- An end that is missing or lies before the start is the start. -/
  stop : toLex (f.endLine, f.endColumn) =
    max (toLex (f.line, f.column))
      (toLex ((endOf? (t.numbers.map number)).getD (f.line, f.column)))
  body : (∃ message code, EndsInCode t.body message code ∧
      f.message = String.ofList message ∧ f.code = some (String.ofList code)) ∨
    (¬ ∃ message code, EndsInCode t.body message code) ∧
      f.message = String.ofList t.body ∧ f.code = none
  link : f.link = none

/-! ## Numbers and severity -/

theorem span_eq_iff (p : Char → Bool) (cs front rest : List Char) :
    cs.span p = (front, rest) ↔
      cs = front ++ rest ∧ (∀ c ∈ front, p c = true) ∧ ∀ c ∈ rest.head?, p c = false := by
  rw [List.span_eq_takeWhile_dropWhile, Prod.mk.injEq]
  constructor
  · rintro ⟨rfl, rfl⟩
    refine ⟨(List.takeWhile_append_dropWhile ..).symm, fun c hc => List.mem_takeWhile_imp hc, ?_⟩
    intro c hc
    have h := List.head?_dropWhile_not p cs
    rw [Option.mem_def] at hc
    simpa [hc] using h
  · rintro ⟨rfl, hfront, hrest⟩
    rw [List.takeWhile_append_of_pos hfront, List.dropWhile_append_of_pos hfront]
    cases rest with
    | nil => simp
    | cons c rest => simp [hrest c rfl]

theorem numberGroup?_eq_some_iff (cs ds rest : List Char) :
    numberGroup? cs = some (ds, rest) ↔
      cs = ':' :: (ds ++ rest) ∧ (ds ≠ [] ∧ ∀ d ∈ ds, isDigit d = true) ∧
        ∀ c ∈ rest.head?, isDigit c = false := by
  cases cs with
  | nil => simp [numberGroup?]
  | cons c cs =>
    by_cases hc : c = ':'
    · subst hc
      have hspan := span_eq_iff isDigit cs ds rest
      rcases hread : cs.span isDigit with ⟨front, more⟩
      rw [hread] at hspan
      cases front with
      | nil =>
        simp only [numberGroup?, hread, reduceCtorEq, false_iff, List.cons.injEq, true_and]
        rintro ⟨rfl, ⟨hne, hdigits⟩, hrest⟩
        have := hspan.2 ⟨rfl, hdigits, hrest⟩
        exact hne (congrArg Prod.fst this).symm
      | cons d front =>
        simp only [numberGroup?, hread, Option.some.injEq, List.cons.injEq, true_and]
        rw [hspan]
        constructor
        · rintro ⟨rfl, hdigits, hrest⟩
          refine ⟨rfl, ⟨?_, hdigits⟩, hrest⟩
          rintro rfl
          have := hspan.2 ⟨rfl, hdigits, hrest⟩
          exact absurd (congrArg Prod.fst this) (by simp)
        · rintro ⟨rfl, ⟨-, hdigits⟩, hrest⟩
          exact ⟨rfl, hdigits, hrest⟩
    · simp [numberGroup?, hc]

theorem isDigit_colon : isDigit ':' = false := by decide

/-- What the reader takes for numbers are numbers. -/
theorem eq_of_numberGroups {n : Nat} {cs rest : List Char} {gs : List (List Char)}
    (h : numberGroups n cs = (gs, rest)) :
    cs = gs.flatMap (':' :: ·) ++ rest ∧ gs.length ≤ n ∧
      ∀ ds ∈ gs, ds ≠ [] ∧ ∀ d ∈ ds, isDigit d = true := by
  induction n generalizing cs gs with
  | zero =>
    simp only [numberGroups, Prod.mk.injEq] at h
    obtain ⟨rfl, rfl⟩ := h
    simp
  | succ n ih =>
    rw [numberGroups] at h
    cases hgroup : numberGroup? cs with
    | none =>
      simp only [hgroup, Prod.mk.injEq] at h
      obtain ⟨rfl, rfl⟩ := h
      simp
    | some group =>
      obtain ⟨ds, more⟩ := group
      rcases hmore : numberGroups n more with ⟨gs', rest'⟩
      simp only [hgroup, hmore, Prod.mk.injEq] at h
      obtain ⟨rfl, rfl⟩ := h
      obtain ⟨rfl, hds, -⟩ := (numberGroup?_eq_some_iff _ _ _).1 hgroup
      obtain ⟨rfl, hlength, hgs⟩ := ih hmore
      refine ⟨by simp, by simpa using hlength, ?_⟩
      rintro ds' (_ | ⟨_, hds'⟩)
      · exact hds
      · exact hgs ds' hds'

/-- Numbers in front of a colon and a blank are read as they are. -/
theorem numberGroups_append {n : Nat} {gs : List (List Char)} (rest : List Char)
    (hfew : gs.length ≤ n) (hgs : ∀ ds ∈ gs, ds ≠ [] ∧ ∀ d ∈ ds, isDigit d = true) :
    numberGroups n (gs.flatMap (':' :: ·) ++ ':' :: ' ' :: rest) = (gs, ':' :: ' ' :: rest) := by
  induction gs generalizing n with
  | nil =>
    have hnone : numberGroup? (':' :: ' ' :: rest) = none := by
      have hblank : isDigit ' ' = false := by decide
      simp [numberGroup?, hblank]
    cases n with
    | zero => rfl
    | succ n => simp [numberGroups, hnone]
  | cons ds gs ih =>
    obtain ⟨n, rfl⟩ : ∃ m, n = m + 1 := ⟨n - 1, by simp at hfew; omega⟩
    have hgroup : numberGroup? (':' :: (ds ++ (gs.flatMap (':' :: ·) ++ ':' :: ' ' :: rest))) =
        some (ds, gs.flatMap (':' :: ·) ++ ':' :: ' ' :: rest) := by
      refine (numberGroup?_eq_some_iff _ _ _).2 ⟨rfl, hgs ds (by simp), fun c hc => ?_⟩
      -- the digits end at a colon, that of the next number or that of the severity
      obtain rfl : c = ':' := by
        cases gs <;> simpa [eq_comm] using hc
      exact isDigit_colon
    have hmore := ih (n := n) (by simpa using hfew) fun ds' h => hgs ds' (by simp [h])
    simp [numberGroups, hgroup, hmore]

theorem severityWord?_eq_some_iff (cs word rest : List Char) :
    severityWord? cs = some (word, rest) ↔
      cs = ": ".toList ++ word ++ ": ".toList ++ rest ∧ word ≠ [] ∧
        ∀ c ∈ word, isWord c = true := by
  constructor
  · intro h
    simp only [severityWord?, bind, Option.bind_eq_some_iff] at h
    obtain ⟨more, hmore, h⟩ := h
    rw [dropFront?_eq_some_iff] at hmore
    rcases hspan : more.span isWord with ⟨front, after⟩
    obtain ⟨rfl, hfront, -⟩ := (span_eq_iff _ _ _ _).1 hspan
    simp only [hspan] at h
    cases front with
    | nil => simp at h
    | cons c front =>
      simp only [List.isEmpty_cons, Bool.false_eq_true, if_false, Option.bind_eq_some_iff] at h
      obtain ⟨after', hafter, h⟩ := h
      rw [dropFront?_eq_some_iff] at hafter
      simp only [pure, Option.some.injEq, Prod.mk.injEq] at h
      obtain ⟨rfl, rfl⟩ := h
      exact ⟨by simp [hmore, hafter], by simp, hfront⟩
  · rintro ⟨rfl, hne, hword⟩
    have hspan : (word ++ ':' :: ' ' :: rest).span isWord = (word, ':' :: ' ' :: rest) := by
      refine (span_eq_iff _ _ _ _).2 ⟨rfl, hword, fun c hc => ?_⟩
      obtain rfl : c = ':' := by simpa [eq_comm] using hc
      exact isWord_colon
    have hfront : dropFront? [':', ' '] (": ".toList ++ word ++ ": ".toList ++ rest) =
        some (word ++ ':' :: ' ' :: rest) := by simp [dropFront?_eq_some_iff]
    have hback : dropFront? [':', ' '] (':' :: ' ' :: rest) = some rest := by
      simp [dropFront?_eq_some_iff]
    simp only [severityWord?, hfront, bind, Option.bind, hspan, List.isEmpty_iff, hne, if_false,
      hback, pure]

/-- Behind a file there is one way to go on, and the reader finds it. -/
theorem tail?_eq_some_iff (cs : List Char) (t : Tail) :
    tail? cs = some t ↔ cs = t.text ∧ t.Proper := by
  constructor
  · intro h
    rcases hgroups : numberGroups 4 cs with ⟨gs, rest⟩
    simp only [tail?, hgroups, bind, Option.bind_eq_some_iff, pure, Option.some.injEq,
      Prod.exists] at h
    obtain ⟨word, body, hword, rfl⟩ := h
    obtain ⟨rfl, hfew, hgs⟩ := eq_of_numberGroups hgroups
    obtain ⟨rfl, hsev⟩ := (severityWord?_eq_some_iff _ _ _).1 hword
    exact ⟨by simp [Tail.text], hfew, hgs, hsev⟩
  · rintro ⟨rfl, ht⟩
    have hgroups : numberGroups 4 t.text =
        (t.numbers, ": ".toList ++ t.severity ++ ": ".toList ++ t.body) := by
      have h := numberGroups_append (t.severity ++ ": ".toList ++ t.body) ht.few ht.digits
      simpa [Tail.text] using h
    have hword := (severityWord?_eq_some_iff _ _ t.body).2 ⟨rfl, ht.severity⟩
    rw [tail?, hgroups]
    simp only [bind, hword, Option.bind_some]
    rfl

/-! ## The file -/

theorem layout_cons_iff (c : Char) (cs file : List Char) (t : Tail) :
    Layout (c :: cs) file t ↔
      file = [c] ∧ tail? cs = some t ∨ ∃ file', file = c :: file' ∧ Layout cs file' t := by
  rw [tail?_eq_some_iff]
  constructor
  · rintro ⟨htext, hfile, ht⟩
    cases file with
    | nil => exact absurd rfl hfile
    | cons c' file' =>
      simp only [List.cons_append, List.cons.injEq] at htext
      obtain ⟨rfl, rfl⟩ := htext
      cases file' with
      | nil => exact .inl ⟨rfl, rfl, ht⟩
      | cons d file' => exact .inr ⟨d :: file', rfl, rfl, by simp, ht⟩
  · rintro (⟨rfl, rfl, ht⟩ | ⟨file', rfl, rfl, -, ht⟩)
    · exact ⟨rfl, by simp, ht⟩
    · exact ⟨rfl, by simp, ht⟩

/-- Going through a line finds the cut, or there is no way to write it. -/
theorem splitFile?_spec (before cs : List Char) :
    match splitFile? before cs with
    | some (file, t) => ∃ file', file = before.reverse ++ file' ∧ Cut cs file' t
    | none => ∀ file t, ¬ Layout cs file t := by
  induction cs generalizing before with
  | nil =>
    rintro file t ⟨htext, hfile, -⟩
    exact hfile (List.append_eq_nil_iff.1 htext.symm).1
  | cons c cs ih =>
    rw [splitFile?]
    cases htail : tail? cs with
    | some t =>
      refine ⟨[c], by simp, (layout_cons_iff ..).2 (.inl ⟨rfl, htail⟩), ?_⟩
      rintro file' t' hlayout
      exact List.length_pos_iff.2 hlayout.named
    | none =>
      -- the file is not `c` alone, so it goes on behind `c`
      have hstep : ∀ file t, Layout (c :: cs) file t ↔
          ∃ file', file = c :: file' ∧ Layout cs file' t := by
        intro file t
        rw [layout_cons_iff, htail]
        simp
      have hrest := ih (c :: before)
      simp only
      split
      · next file t hsplit =>
        simp only [hsplit] at hrest
        obtain ⟨file', rfl, hcut⟩ := hrest
        refine ⟨c :: file', by simp, (hstep _ _).2 ⟨file', rfl, hcut.toLayout⟩, ?_⟩
        intro other t' hlayout
        obtain ⟨other', rfl, hother⟩ := (hstep _ _).1 hlayout
        simpa using hcut.shortest other' t' hother
      · next hsplit =>
        simp only [hsplit] at hrest
        intro file t hlayout
        obtain ⟨file', rfl, hfile'⟩ := (hstep _ _).1 hlayout
        exact hrest file' t hfile'

/-- There is one cut. -/
theorem Cut.unique {cs file file' : List Char} {t t' : Tail} (h : Cut cs file t)
    (h' : Cut cs file' t') : file = file' ∧ t = t' := by
  have hlength : file.length = file'.length :=
    Nat.le_antisymm (h.shortest _ _ h'.toLayout) (h'.shortest _ _ h.toLayout)
  obtain ⟨rfl, htext⟩ := List.append_inj (h.text.symm.trans h'.text) hlength
  have ht := (tail?_eq_some_iff t.text t).2 ⟨rfl, h.tail⟩
  have ht' := (tail?_eq_some_iff t.text t').2 ⟨htext, h'.tail⟩
  exact ⟨rfl, Option.some.inj (ht.symm.trans ht')⟩

theorem splitFile?_eq_some_iff (cs file : List Char) (t : Tail) :
    splitFile? [] cs = some (file, t) ↔ Cut cs file t := by
  have hspec := splitFile?_spec [] cs
  constructor
  · intro h
    simp only [h, List.reverse_nil, List.nil_append] at hspec
    obtain ⟨file', rfl, hcut⟩ := hspec
    exact hcut
  · intro hcut
    cases h : splitFile? [] cs with
    | none =>
      simp only [h] at hspec
      exact absurd hcut.toLayout (hspec file t)
    | some found =>
      obtain ⟨found, t'⟩ := found
      simp only [h, List.reverse_nil, List.nil_append] at hspec
      obtain ⟨file', rfl, hcut'⟩ := hspec
      obtain ⟨rfl, rfl⟩ := hcut.unique hcut'
      rfl

/-! ## Error codes -/

theorem isCodeChar_iff (c : Char) : isCodeChar c = true ↔ isWord c = true ∨ c = '-' := by
  simp [isCodeChar]

theorem splitCode_of_endsInCode {body message code : List Char}
    (h : EndsInCode body message code) : splitCode body = (message, some code) := by
  obtain ⟨rfl, hne, hchars⟩ := h
  have hreverse : (message ++ "  [".toList ++ code ++ "]".toList).reverse =
      ']' :: (code.reverse ++ '[' :: ' ' :: ' ' :: message.reverse) := by simp
  have hspan : (code.reverse ++ '[' :: ' ' :: ' ' :: message.reverse).span isCodeChar =
      (code.reverse, '[' :: ' ' :: ' ' :: message.reverse) := by
    refine (span_eq_iff _ _ _ _).2 ⟨rfl, fun c hc => ?_, fun c hc => ?_⟩
    · exact (isCodeChar_iff c).2 (hchars c (List.mem_reverse.1 hc))
    · obtain rfl : c = '[' := by simpa [eq_comm] using hc
      decide
  cases hcode : code.reverse with
  | nil => exact absurd (List.reverse_eq_nil_iff.1 hcode) hne
  | cons c rest =>
    rw [hcode] at hspan
    simp only [splitCode, hreverse, hcode, hspan]
    rw [← hcode]
    simp

/-- The code is split off exactly if there is one. -/
theorem splitCode_spec (body : List Char) :
    (∃ message code, EndsInCode body message code ∧ splitCode body = (message, some code)) ∨
      (¬ ∃ message code, EndsInCode body message code) ∧ splitCode body = (body, none) := by
  by_cases h : ∃ message code, EndsInCode body message code
  · obtain ⟨message, code, hcode⟩ := h
    exact .inl ⟨message, code, hcode, splitCode_of_endsInCode hcode⟩
  · refine .inr ⟨h, ?_⟩
    rw [splitCode]
    split
    · next rest hreverse =>
      split
      · rfl
      · next code message hne hspan =>
        obtain ⟨rfl, hchars, -⟩ := (span_eq_iff _ _ _ _).1 hspan
        refine absurd ⟨message.reverse, code.reverse, ?_, ?_, fun c hc => ?_⟩ h
        · have := congrArg List.reverse hreverse
          simpa using this
        · exact fun hnil => hne (List.reverse_eq_nil_iff.1 hnil)
        · exact (isCodeChar_iff c).1 (hchars c (List.mem_reverse.1 hc))
      · rfl
    · rfl

/-! ## Positions -/

theorem valueOfDigits_eq_number (ds : List Char) : valueOfDigits ds = number ds := by
  induction ds using List.reverseRecOn with
  | nil => rfl
  | append_singleton ds d ih =>
    have hvalue : valueOfDigits (ds ++ [d]) = 10 * valueOfDigits ds + (digitValue? d).getD 0 := by
      simp [valueOfDigits]
    rw [hvalue, ih]
    simp [number, Nat.ofDigits_cons, Nat.add_comm]

theorem zeroBased_eq_fromZero (n : Nat) : zeroBased n = fromZero n := by
  simp only [zeroBased, fromZero]
  omega

theorem Span.start_collapse (s : Span) :
    s.collapse.line = s.line ∧ s.collapse.column = s.column := by
  rw [collapse]
  split <;> exact ⟨rfl, rfl⟩

/-- Collapsing a span takes the later one of its start and its end. -/
theorem Span.end_collapse (s : Span) :
    toLex (s.collapse.endLine, s.collapse.endColumn) =
      max (toLex (s.line, s.column)) (toLex (s.endLine, s.endColumn)) := by
  have hreversed : s.isReversed = true ↔
      toLex (s.endLine, s.endColumn) < toLex (s.line, s.column) := by
    simp [isReversed, Prod.Lex.toLex_lt_toLex]
  rw [collapse]
  split
  · next h => exact (max_eq_left (hreversed.1 h).le).symm
  · next h => exact (max_eq_right (not_lt.1 fun hlt => h (hreversed.2 hlt))).symm

theorem spanOf_start {ns : List Nat} (hfew : ns.length ≤ 4) :
    ((spanOf ns).line, (spanOf ns).column) = startOf ns := by
  match ns, hfew with
  | [], _ | [_], _ | [_, _], _ => simp [spanOf, startOf, zeroBased_eq_fromZero]
  | [_, _, _], _ | [_, _, _, _], _ =>
    simp [spanOf, startOf, zeroBased_eq_fromZero, Span.start_collapse]
  | _ :: _ :: _ :: _ :: _ :: _, h =>
    simp only [List.length_cons] at h
    omega

theorem spanOf_end {ns : List Nat} (hfew : ns.length ≤ 4) :
    toLex ((spanOf ns).endLine, (spanOf ns).endColumn) =
      max (toLex (startOf ns)) (toLex ((endOf? ns).getD (startOf ns))) := by
  match ns, hfew with
  | [], _ | [_], _ | [_, _], _ => simp [spanOf, startOf, endOf?, zeroBased_eq_fromZero]
  | [_, _, _], _ | [_, _, _, _], _ =>
    simp [spanOf, startOf, endOf?, zeroBased_eq_fromZero, Span.end_collapse]
  | _ :: _ :: _ :: _ :: _ :: _, h =>
    simp only [List.length_cons] at h
    omega

/-! ## Whole lines -/

theorem oneLine?_of_not_mem {cs : List Char} (h : '\n' ∉ cs) : oneLine? cs = some cs := by
  have hlast : cs.getLast? ≠ some '\n' := fun hlast => h (List.mem_of_getLast? hlast)
  simp [oneLine?, hlast, h]

theorem length_le_of_oneLine? {cs cs' : List Char} (h : oneLine? cs = some cs') :
    cs'.length ≤ cs.length := by
  simp only [oneLine?, Option.ite_none_left_eq_some, Option.some.injEq] at h
  obtain ⟨-, rfl⟩ := h
  split <;> simp

/-- The numbers of a line are no longer than the line. -/
theorem readable_of_length {line : String} (h : line.toList.length ≤ 4300) : Readable line := by
  intro cs file t hcs hcut ds hds
  have hsub : (':' :: ds).Sublist t.text := by
    have hmem : ':' :: ds ∈ t.numbers.map (':' :: ·) := List.mem_map_of_mem hds
    have hnumbers := List.sublist_flatten_of_mem hmem
    rw [Tail.text, List.flatMap_def]
    simp only [List.append_assoc]
    exact hnumbers.trans (List.sublist_append_left _ _)
  calc ds.length ≤ (':' :: ds).length := by simp
    _ ≤ t.text.length := hsub.length_le
    _ ≤ cs.length := by rw [hcut.text]; simp
    _ ≤ line.toList.length := length_le_of_oneLine? hcs
    _ ≤ 4300 := h

theorem mapM_readNumeral {l : List (List Char)} (h : ∀ ds ∈ l, ds.length ≤ 4300) :
    l.mapM readNumeral = .ok (l.map number) := by
  apply mapM_eq_ok
  intro ds hds
  have hlength : ds.length ≤ maxDigits := h ds hds
  rw [readNumeral, if_pos hlength, valueOfDigits_eq_number]

theorem finding_eq {file : List Char} {t : Tail} (hread : ∀ ds ∈ t.numbers, ds.length ≤ 4300) :
    finding file t = .ok {
      file := String.ofList file
      line := (spanOf (t.numbers.map number)).line
      column := (spanOf (t.numbers.map number)).column
      endLine := (spanOf (t.numbers.map number)).endLine
      endColumn := (spanOf (t.numbers.map number)).endColumn
      severity := String.ofList t.severity
      message := String.ofList (splitCode t.body).1
      code := (splitCode t.body).2.map String.ofList } := by
  rw [finding, mapM_readNumeral hread]
  rfl

/-- A split line with numbers that can be read says something. -/
theorem exists_finding {file : List Char} {t : Tail} (ht : t.Proper)
    (hread : ∀ ds ∈ t.numbers, ds.length ≤ 4300) :
    ∃ f, finding file t = .ok f ∧ Says file t f := by
  have hfew : (t.numbers.map number).length ≤ 4 := by simpa using ht.few
  have hstart := spanOf_start hfew
  refine ⟨_, finding_eq hread, rfl, rfl, hstart, ?_, ?_, rfl⟩
  · rw [spanOf_end hfew, hstart]
  · rcases splitCode_spec t.body with ⟨message, code, hcode, hsplit⟩ | ⟨hnone, hsplit⟩ <;>
      rw [hsplit]
    · exact .inl ⟨message, code, hcode, rfl, rfl⟩
    · exact .inr ⟨hnone, rfl, rfl⟩

/-- A line says one thing. -/
theorem Says.unique {file : List Char} {t : Tail} {f f' : Finding} (h : Says file t f)
    (h' : Says file t f') : f = f' := by
  have hstart := h.start.trans h'.start.symm
  have hstop : (f.endLine, f.endColumn) = (f'.endLine, f'.endColumn) := by
    apply toLex.injective
    rw [h.stop, h'.stop, hstart]
  have hbody : f.message = f'.message ∧ f.code = f'.code := by
    rcases h.body with ⟨message, code, hcode, hm, hc⟩ | ⟨hnone, hm, hc⟩ <;>
      rcases h'.body with ⟨message', code', hcode', hm', hc'⟩ | ⟨hnone', hm', hc'⟩
    · have hsame := (splitCode_of_endsInCode hcode).symm.trans (splitCode_of_endsInCode hcode')
      simp only [Prod.mk.injEq, Option.some.injEq] at hsame
      rw [hm, hc, hm', hc', hsame.1, hsame.2]
      exact ⟨rfl, rfl⟩
    · exact absurd ⟨message, code, hcode⟩ hnone'
    · exact absurd ⟨message', code', hcode'⟩ hnone
    · exact ⟨hm.trans hm'.symm, hc.trans hc'.symm⟩
  simp only [Prod.mk.injEq] at hstart hstop
  obtain ⟨file₁, line₁, column₁, endLine₁, endColumn₁, severity₁, message₁, code₁, link₁⟩ := f
  have hfile := h.file.trans h'.file.symm
  have hseverity := h.severity.trans h'.severity.symm
  have hlink := h.link.trans h'.link.symm
  simp only at hfile hseverity hlink hstart hstop hbody
  rw [hfile, hseverity, hlink, hstart.1, hstart.2, hstop.1, hstop.2, hbody.1, hbody.2]

/-- A line whose numbers can be read is read: as what its cut says, or as noise. -/
theorem parseLine_spec {line : String} {cs : List Char} (hcs : oneLine? line.toList = some cs)
    (hread : ∀ file t, Cut cs file t → ∀ ds ∈ t.numbers, ds.length ≤ 4300) :
    (∃ file t f, Cut cs file t ∧ Says file t f ∧ parseLine line = .ok (some f)) ∨
      (∀ file t, ¬ Layout cs file t) ∧ parseLine line = .ok none := by
  have hspec := splitFile?_spec [] cs
  have hsplit : split? line.toList = splitFile? [] cs := by rw [split?, hcs]; rfl
  rw [parseLine, hsplit]
  split at hspec
  · next file t hfound =>
    obtain ⟨file', hfile, hcut⟩ := hspec
    obtain rfl : file = file' := hfile
    obtain ⟨f, hf, hmeans⟩ := exists_finding hcut.tail (hread file t hcut)
    refine .inl ⟨file, t, f, hcut, hmeans, ?_⟩
    rw [hfound]
    simp only [hf, Except.map]
  · next hnone =>
    refine .inr ⟨hspec, ?_⟩
    rw [hnone]

theorem length_le_of_mapM_readNumeral {l : List (List Char)} {ns : List Nat}
    (h : l.mapM readNumeral = .ok ns) : ∀ ds ∈ l, ds.length ≤ 4300 := by
  intro ds hds
  obtain ⟨n, hn⟩ := exists_of_mapM_ok h ds hds
  by_contra hlong
  rw [readNumeral, if_neg (show ¬ ds.length ≤ maxDigits from hlong)] at hn
  exact absurd hn (by simp)

/-- A line is read as what its cut says, if the numbers can be read. -/
theorem parseLine_eq_some_iff (line : String) (f : Finding) :
    parseLine line = .ok (some f) ↔ ∃ cs file t, oneLine? line.toList = some cs ∧ Cut cs file t ∧
      (∀ ds ∈ t.numbers, ds.length ≤ 4300) ∧ Says file t f := by
  constructor
  · intro h
    rw [parseLine] at h
    split at h
    · exact absurd h (by simp)
    · next file t hsplit =>
      obtain ⟨cs, hcs, hfile⟩ := Option.bind_eq_some_iff.1 hsplit
      have hcut := (splitFile?_eq_some_iff cs file t).1 hfile
      have hfinding : finding file t = .ok f := by
        cases hfinding : finding file t with
        | error e => simp [hfinding, Except.map] at h
        | ok f' => simpa [hfinding, Except.map] using h
      have hread : ∀ ds ∈ t.numbers, ds.length ≤ 4300 := by
        cases hnumbers : t.numbers.mapM readNumeral with
        | error e => simp [finding, hnumbers, bind, Except.bind] at hfinding
        | ok ns => exact length_le_of_mapM_readNumeral hnumbers
      obtain ⟨f', hf', hsaid⟩ := exists_finding hcut.tail hread
      obtain rfl := Except.ok.inj (hfinding.symm.trans hf')
      exact ⟨cs, file, t, hcs, hcut, hread, hsaid⟩
  · rintro ⟨cs, file, t, hcs, hcut, hread, hsaid⟩
    obtain ⟨f', hf', hsaid'⟩ := exists_finding hcut.tail hread
    obtain rfl := hsaid.unique hsaid'
    have hsplit : split? line.toList = some (file, t) :=
      Option.bind_eq_some_iff.2 ⟨cs, hcs, (splitFile?_eq_some_iff cs file t).2 hcut⟩
    rw [parseLine, hsplit]
    simp only [hf', Except.map]

/-- A line is read as a finding if and only if it can be written as a file, at most four numbers,
a severity and a body; the finding is what the way to write it with the shortest file says. -/
theorem parseLine_reads_cut (line : String) (hline : '\n' ∉ line.toList)
    (hread : ∀ file t, Cut line.toList file t → ∀ ds ∈ t.numbers, ds.length ≤ 4300) :
    ((∃ f, parseLine line = .ok (some f)) ↔ ∃ file t, Layout line.toList file t) ∧
      (parseLine line = .ok none ↔ ¬ ∃ file t, Layout line.toList file t) ∧
      ∀ f, parseLine line = .ok (some f) ↔ ∃ file t, Cut line.toList file t ∧ Says file t f := by
  rcases parseLine_spec (oneLine?_of_not_mem hline) hread with
    ⟨file, t, f, hcut, hmeans, hparse⟩ | ⟨hnone, hparse⟩
  · have hlayout : ∃ file t, Layout line.toList file t := ⟨file, t, hcut.toLayout⟩
    refine ⟨⟨fun _ => hlayout, fun _ => ⟨f, hparse⟩⟩, ?_, fun f' => ?_⟩
    · simp [hparse, hlayout]
    · rw [hparse]
      constructor
      · intro h
        obtain rfl : f = f' := by simpa using h
        exact ⟨file, t, hcut, hmeans⟩
      · rintro ⟨file', t', hcut', hmeans'⟩
        obtain ⟨rfl, rfl⟩ := hcut.unique hcut'
        rw [hmeans.unique hmeans']
  · have hlayout : ¬ ∃ file t, Layout line.toList file t := fun ⟨file, t, h⟩ => hnone file t h
    refine ⟨by simp [hparse, hlayout], by simp [hparse, hlayout], fun f => ?_⟩
    constructor
    · intro h
      exact absurd (hparse.symm.trans h) (by simp)
    · rintro ⟨file, t, hcut, -⟩
      exact absurd hcut.toLayout (hnone file t)

/-- A colon and a blank stand in the name of the file, and the end lies before the start. -/
theorem parseLine_reads_cut_of_three_numbers :
    parseLine "a: b.py:7:3:5: error: Bad  [arg-type]" = .ok (some {
      file := "a: b.py", line := 6, column := 0, endLine := 6, endColumn := 0,
      severity := "error", message := "Bad", code := some "arg-type" }) := by
  have hcut : Cut "a: b.py:7:3:5: error: Bad  [arg-type]".toList "a: b.py".toList
      ⟨["7".toList, "3".toList, "5".toList], "error".toList, "Bad  [arg-type]".toList⟩ := by
    rw [← splitFile?_eq_some_iff]
    decide +kernel
  have hread : ∀ file t, Cut "a: b.py:7:3:5: error: Bad  [arg-type]".toList file t →
      ∀ ds ∈ t.numbers, ds.length ≤ 4300 := by
    intro file t h
    obtain ⟨-, rfl⟩ := hcut.unique h
    decide
  refine ((parseLine_reads_cut _ (by decide) hread).2.2 _).2 ⟨_, _, hcut, ?_⟩
  have hchars : "arg-type".toList.all isCodeChar = true := by decide +kernel
  have hcode : EndsInCode "Bad  [arg-type]".toList "Bad".toList "arg-type".toList :=
    ⟨by decide, by decide, fun c hc => (isCodeChar_iff c).1 (List.all_eq_true.1 hchars c hc)⟩
  exact ⟨by decide, by decide, by decide, by decide, .inl ⟨_, _, hcode, by decide, by decide⟩, rfl⟩

end Overseer.Output
