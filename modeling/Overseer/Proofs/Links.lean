import Overseer.Output.Report
import Overseer.Proofs.NoteRuns

set_option autoImplicit false

/-! # Where findings are documented

A message may send the reader to an address. What such an address is, and where it ends, is said
here by the ways to write a message (`SendsTo`), without going through it: `see` stands at the start
of a word, the address goes on to the next white space, and the first place of this kind counts.

The messages of a run are joined by line feeds before the address is looked for. No `see` and no
address has a line feed, and none is a word character, so looking through the joined message is
looking through one message after the other (`seeAddress?_intercalate`). -/

namespace Overseer.Output

open Overseer.Text

/-! ## What an address is -/

/-- A text starts with an address: a scheme and all that follows up to the next white space. -/
structure StartsWithAddress (text scheme host : List Char) : Prop where
  text : ∃ after, text = scheme ++ host ++ after ∧ ∀ c ∈ after.head?, isBlank c = true
  known : scheme = "http://".toList ∨ scheme = "https://".toList
  ne_nil : host ≠ []
  chars : ∀ c ∈ host, isBlank c = false

/-- A text starts with `see`, a blank and an address. -/
def StartsWithSee (text scheme host : List Char) : Prop :=
  ∃ s rest, (s = 's' ∨ s = 'S') ∧ text = s :: "ee ".toList ++ rest ∧
    StartsWithAddress rest scheme host

/-- A text has `see` and an address behind a beginning that does not end inside a word. -/
structure Sees (text before scheme host : List Char) : Prop where
  text : ∃ rest, text = before ++ rest ∧ StartsWithSee rest scheme host
  boundary : ∀ c ∈ before.getLast?, isWord c = false

/-- One mark that closes the sentence is dropped, unless nothing else is left. -/
inductive Trims (host : List Char) : List Char → Prop
  | closed {front : List Char} {c : Char} (hfront : front ≠ [])
      (hc : c = '.' ∨ c = ',' ∨ c = ';' ∨ c = ')') (h : host = front ++ [c]) : Trims host front
  | whole (h : ∀ front c, front ≠ [] → (c = '.' ∨ c = ',' ∨ c = ';' ∨ c = ')') →
      host ≠ front ++ [c]) : Trims host host

/-- The address behind the first `see` of a text. -/
def SendsTo (text address : List Char) : Prop :=
  ∃ before scheme host kept, Sees text before scheme host ∧
    (∀ before' scheme' host', Sees text before' scheme' host' → before.length ≤ before'.length) ∧
    Trims host kept ∧ address = scheme ++ kept

/-- Where a run of findings is documented: at the first address that a message sends to, or else
where the first error code is documented. -/
inductive Documents (run : List Finding) : Option String → Prop
  | seen {before after : List Finding} {f : Finding} {address : List Char}
      (hrun : run = before ++ f :: after) (hsends : SendsTo f.message.toList address)
      (hfirst : ∀ g ∈ before, ∀ a, ¬ SendsTo g.message.toList a) :
      Documents run (some (String.ofList address))
  | coded {before after : List Finding} {f : Finding} {code : String}
      (hunseen : ∀ g ∈ run, ∀ a, ¬ SendsTo g.message.toList a)
      (hrun : run = before ++ f :: after) (hcode : f.code = some code)
      (hfirst : ∀ g ∈ before, g.code = none) :
      Documents run (some ("https://mypy.readthedocs.io/en/stable/_refs.html#code-" ++ code))
  | bare (hunseen : ∀ g ∈ run, ∀ a, ¬ SendsTo g.message.toList a)
      (huncoded : ∀ g ∈ run, g.code = none) : Documents run none

/-! ## Reading an address -/

theorem isClosing_iff (c : Char) :
    isClosing c = true ↔ c = '.' ∨ c = ',' ∨ c = ';' ∨ c = ')' := by
  simp only [isClosing, Bool.or_eq_true, beq_iff_eq, or_assoc]

theorem dropClosing_concat (front : List Char) (c : Char) :
    dropClosing (front ++ [c]) =
      if isClosing c = true ∧ front ≠ [] then front else front ++ [c] := by
  simp only [dropClosing, List.getLast?_concat, List.dropLast_concat, Bool.and_eq_true,
    decide_eq_true_eq, List.length_append, List.length_singleton, Nat.lt_add_left_iff_pos,
    List.length_pos_iff]

theorem trims_iff {host kept : List Char} (hne : host ≠ []) :
    Trims host kept ↔ kept = dropClosing host := by
  obtain ⟨front, c, rfl⟩ : ∃ front c, host = front ++ [c] :=
    ⟨host.dropLast, host.getLast hne, (List.dropLast_concat_getLast hne).symm⟩
  have hlast : ∀ front' c', front ++ [c] = front' ++ [c'] → front = front' ∧ c = c' := by
    intro front' c' h
    obtain ⟨hfront, hc⟩ := List.append_inj' h rfl
    exact ⟨hfront, List.singleton_inj.1 hc⟩
  rw [dropClosing_concat]
  constructor
  · intro h
    cases h with
    | @closed front' c' hfront hc h =>
      obtain ⟨rfl, rfl⟩ := hlast _ _ h
      rw [if_pos ⟨(isClosing_iff c).2 hc, hfront⟩]
    | whole h =>
      rw [if_neg]
      rintro ⟨hc, hfront⟩
      exact h front c hfront ((isClosing_iff c).1 hc) rfl
  · rintro rfl
    split
    · next hdrop => exact .closed hdrop.2 ((isClosing_iff c).1 hdrop.1) rfl
    · next hkeep =>
      refine .whole fun front' c' hfront hc h => hkeep ?_
      obtain ⟨rfl, rfl⟩ := hlast _ _ h
      exact ⟨(isClosing_iff c).2 hc, hfront⟩

/-- The address with a given scheme at the start of a text. -/
def schemeAddress? (scheme : String) (cs : List Char) : Option (List Char) := do
  let rest ← dropFront? scheme.toList cs
  let host := rest.takeWhile fun c => !isBlank c
  if host.isEmpty then none else some (scheme.toList ++ dropClosing host)

theorem address?_eq (cs : List Char) :
    address? cs = (schemeAddress? "http://" cs <|> schemeAddress? "https://" cs) := rfl

theorem schemeAddress?_eq_some_iff (scheme : String)
    (hknown : scheme.toList = "http://".toList ∨ scheme.toList = "https://".toList)
    (cs a : List Char) :
    schemeAddress? scheme cs = some a ↔
      ∃ host, StartsWithAddress cs scheme.toList host ∧ a = scheme.toList ++ dropClosing host := by
  rw [schemeAddress?]
  constructor
  · intro h
    obtain ⟨rest, hrest, h⟩ := Option.bind_eq_some_iff.1 h
    obtain ⟨hcut, hchars, hafter⟩ := (span_eq_iff (fun c => !isBlank c) rest
      (rest.takeWhile fun c => !isBlank c) (rest.dropWhile fun c => !isBlank c)).1
      (List.span_eq_takeWhile_dropWhile ..)
    rw [dropFront?_eq_some_iff, hcut] at hrest
    simp only [List.isEmpty_iff] at h
    split at h
    · exact absurd h (by simp)
    · next hne =>
      refine ⟨_, ⟨⟨_, by rw [hrest, List.append_assoc], ?_⟩, hknown, hne, ?_⟩,
        (Option.some.inj h).symm⟩
      · simpa using hafter
      · simpa using hchars
  · rintro ⟨host, ⟨⟨after, rfl, hafter⟩, -, hne, hchars⟩, rfl⟩
    refine Option.bind_eq_some_iff.2 ⟨host ++ after, ?_, ?_⟩
    · rw [dropFront?_eq_some_iff, List.append_assoc]
    · have hcut := (span_eq_iff (fun c => !isBlank c) (host ++ after) host after).2
        ⟨rfl, by simpa using hchars, by simpa using hafter⟩
      rw [List.span_eq_takeWhile_dropWhile, Prod.mk.injEq] at hcut
      simp [hcut.1, hne]

/-- An address is read as it is written, but for a mark that closes the sentence. -/
theorem address?_eq_some_iff (cs a : List Char) :
    address? cs = some a ↔ ∃ scheme host kept, StartsWithAddress cs scheme host ∧
      Trims host kept ∧ a = scheme ++ kept := by
  have hplain := schemeAddress?_eq_some_iff "http://" (.inl rfl) cs
  have hsecure := schemeAddress?_eq_some_iff "https://" (.inr rfl) cs
  rw [address?_eq]
  constructor
  · intro h
    rcases (Option.orElse_eq_some _ _ _).1 h with h | ⟨-, h⟩
    · obtain ⟨host, haddress, rfl⟩ := (hplain a).1 h
      exact ⟨_, host, _, haddress, (trims_iff haddress.ne_nil).2 rfl, rfl⟩
    · obtain ⟨host, haddress, rfl⟩ := (hsecure a).1 h
      exact ⟨_, host, _, haddress, (trims_iff haddress.ne_nil).2 rfl, rfl⟩
  · rintro ⟨scheme, host, kept, haddress, htrims, rfl⟩
    obtain rfl := (trims_iff haddress.ne_nil).1 htrims
    rcases haddress.known with rfl | rfl
    · exact (Option.orElse_eq_some _ _ _).2 (.inl ((hplain _).2 ⟨host, haddress, rfl⟩))
    · refine (Option.orElse_eq_some _ _ _).2 (.inr ⟨?_, (hsecure _).2 ⟨host, haddress, rfl⟩⟩)
      -- no text starts with both schemes
      rw [Option.eq_none_iff_forall_ne_some]
      intro a' ha'
      obtain ⟨host', ⟨⟨after', htext', -⟩, -⟩, -⟩ := (hplain a').1 ha'
      obtain ⟨after, htext, -⟩ := haddress.text
      exact absurd (htext.symm.trans htext') (by simp)

theorem seeHere?_eq_some_iff (cs a : List Char) :
    seeHere? cs = some a ↔ ∃ scheme host kept, StartsWithSee cs scheme host ∧
      Trims host kept ∧ a = scheme ++ kept := by
  constructor
  · intro h
    unfold seeHere? at h
    split at h
    · next s rest =>
      split_ifs at h with hs
      obtain ⟨scheme, host, kept, haddress, hkept⟩ := (address?_eq_some_iff rest a).1 h
      exact ⟨scheme, host, kept, ⟨s, rest, by simpa using hs, rfl, haddress⟩, hkept⟩
    · exact absurd h (by simp)
  · rintro ⟨scheme, host, kept, ⟨s, rest, hs, rfl, haddress⟩, hkept⟩
    have hs' : (s == 's' || s == 'S') = true := by simpa using hs
    have hread := (address?_eq_some_iff rest a).2 ⟨scheme, host, kept, haddress, hkept⟩
    simp [seeHere?, hs', hread]

theorem seeHere?_eq_none_iff (cs : List Char) :
    seeHere? cs = none ↔ ∀ scheme host, ¬ StartsWithSee cs scheme host := by
  rw [Option.eq_none_iff_forall_ne_some]
  constructor
  · intro h scheme host hsee
    obtain ⟨_, _, _, _, haddress⟩ := id hsee
    exact h _ ((seeHere?_eq_some_iff cs _).2
      ⟨scheme, host, _, hsee, (trims_iff haddress.ne_nil).2 rfl, rfl⟩)
  · intro h a ha
    obtain ⟨scheme, host, -, hsee, -⟩ := (seeHere?_eq_some_iff cs a).1 ha
    exact h scheme host hsee

/-! ## Going through a message -/

theorem sees_cons_iff (front : List Char) (c : Char) (cs before scheme host : List Char) :
    Sees (front ++ c :: cs) (front ++ before) scheme host ↔
      (before = [] ∧ front.getLast?.any isWord = false ∧ StartsWithSee (c :: cs) scheme host) ∨
      ∃ before', before = c :: before' ∧
        Sees (front ++ [c] ++ cs) (front ++ [c] ++ before') scheme host := by
  constructor
  · rintro ⟨⟨rest, htext, hsee⟩, hboundary⟩
    rw [List.append_assoc, List.append_cancel_left_eq] at htext
    cases before with
    | nil =>
      rw [List.append_nil] at hboundary
      obtain rfl : c :: cs = rest := htext
      refine .inl ⟨rfl, ?_, hsee⟩
      cases hlast : front.getLast? with
      | none => rfl
      | some d => exact hboundary d hlast
    | cons d before' =>
      obtain ⟨rfl, rfl⟩ := List.cons_eq_cons.1 htext
      exact .inr ⟨before', rfl, ⟨rest, by simp, hsee⟩, by simpa using hboundary⟩
  · rintro (⟨rfl, hboundary, hsee⟩ | ⟨before', rfl, ⟨rest, htext, hsee⟩, hboundary⟩)
    · refine ⟨⟨c :: cs, by simp, hsee⟩, fun d hd => ?_⟩
      rw [List.append_nil, Option.mem_def] at hd
      simpa [hd] using hboundary
    · exact ⟨⟨rest, by simpa using htext, hsee⟩, by simpa using hboundary⟩

/-- Going through a text finds the first `see` with an address, or there is none. -/
theorem seeAddress?_spec (front cs : List Char) :
    match seeAddress? (front.getLast?.any isWord) cs with
    | some a => ∃ before scheme host kept, Sees (front ++ cs) (front ++ before) scheme host ∧
        (∀ before' scheme' host', Sees (front ++ cs) (front ++ before') scheme' host' →
          before.length ≤ before'.length) ∧
        Trims host kept ∧ a = scheme ++ kept
    | none => ∀ before scheme host, ¬ Sees (front ++ cs) (front ++ before) scheme host := by
  induction cs generalizing front with
  | nil =>
    rintro before scheme host ⟨⟨rest, htext, s, rest', -, rfl, -⟩, -⟩
    rw [List.append_assoc, List.append_cancel_left_eq] at htext
    exact absurd htext (by simp)
  | cons c cs ih =>
    have hrest := ih (front ++ [c])
    rw [List.getLast?_concat, Option.any_some] at hrest
    rw [seeAddress?]
    cases hhere : (if front.getLast?.any isWord = true then none else seeHere? (c :: cs)) with
    | some a =>
      split_ifs at hhere with hboundary
      obtain ⟨scheme, host, kept, hsee, hkept⟩ := (seeHere?_eq_some_iff _ a).1 hhere
      refine ⟨[], scheme, host, kept, ?_, fun _ _ _ _ => Nat.zero_le _, hkept⟩
      exact (sees_cons_iff ..).2 (.inl ⟨rfl, by simpa using hboundary, hsee⟩)
    | none =>
      -- there is no `see` in front of `c`, so the first one is behind it
      have hstep : ∀ before scheme host, Sees (front ++ c :: cs) (front ++ before) scheme host ↔
          ∃ before', before = c :: before' ∧
            Sees (front ++ [c] ++ cs) (front ++ [c] ++ before') scheme host := by
        intro before scheme host
        rw [sees_cons_iff, or_iff_right]
        rintro ⟨-, hboundary, hsee⟩
        rw [hboundary, if_neg Bool.false_ne_true, seeHere?_eq_none_iff] at hhere
        exact hhere scheme host hsee
      simp only
      split
      · next a ha =>
        simp only [ha] at hrest
        obtain ⟨before, scheme, host, kept, hsees, hfirst, hkept⟩ := hrest
        refine ⟨c :: before, scheme, host, kept, (hstep ..).2 ⟨before, rfl, hsees⟩, ?_, hkept⟩
        intro other scheme' host' hother
        obtain ⟨other', rfl, hother'⟩ := (hstep ..).1 hother
        simpa using hfirst other' scheme' host' hother'
      · next hnone =>
        simp only [hnone] at hrest
        intro before scheme host hsees
        obtain ⟨before', rfl, hsees'⟩ := (hstep ..).1 hsees
        exact hrest before' scheme host hsees'

theorem seeAddress?_eq_some_iff (cs a : List Char) :
    seeAddress? false cs = some a ↔ SendsTo cs a := by
  have hspec := seeAddress?_spec [] cs
  rw [List.getLast?_nil, Option.any_none] at hspec
  simp only [List.nil_append] at hspec
  constructor
  · intro h
    rw [h] at hspec
    exact hspec
  · rintro ⟨before, scheme, host, kept, hsees, hfirst, hkept⟩
    cases hread : seeAddress? false cs with
    | none =>
      simp only [hread] at hspec
      exact absurd hsees (hspec before scheme host)
    | some a' =>
      simp only [hread] at hspec
      obtain ⟨before', scheme', host', kept', hsees', hfirst', hkept'⟩ := hspec
      have hlength : before.length = before'.length :=
        Nat.le_antisymm (hfirst _ _ _ hsees') (hfirst' _ _ _ hsees)
      obtain ⟨rest, htext, hsee⟩ := hsees.text
      obtain ⟨rest', htext', hsee'⟩ := hsees'.text
      obtain ⟨-, rfl⟩ := List.append_inj (htext.symm.trans htext') hlength
      have ha := (seeHere?_eq_some_iff rest a).2 ⟨scheme, host, kept, hsee, hkept⟩
      rw [← ha]
      exact ((seeHere?_eq_some_iff rest a').2 ⟨scheme', host', kept', hsee', hkept'⟩).symm

theorem seeAddress?_eq_none_iff (cs : List Char) :
    seeAddress? false cs = none ↔ ∀ a, ¬ SendsTo cs a := by
  simp only [Option.eq_none_iff_forall_ne_some, ne_eq, seeAddress?_eq_some_iff]

/-! ## Line feeds between messages -/

theorem dropFront?_append_lf {front : List Char} (h : '\n' ∉ front) (cs rest : List Char) :
    dropFront? front (cs ++ '\n' :: rest) = (dropFront? front cs).map (· ++ '\n' :: rest) := by
  induction front generalizing cs with
  | nil => rfl
  | cons f front ih =>
    simp only [List.mem_cons, not_or] at h
    cases cs with
    | nil => simp [dropFront?, Ne.symm h.1]
    | cons c cs =>
      rw [List.cons_append, dropFront?, dropFront?]
      split
      · exact ih h.2 cs
      · rfl

theorem takeWhile_append_lf (cs rest : List Char) :
    (cs ++ '\n' :: rest).takeWhile (fun c => !isBlank c) = cs.takeWhile fun c => !isBlank c := by
  have hlf : isBlank '\n' = true := by decide
  induction cs with
  | nil => simp [hlf]
  | cons c cs ih => simp [List.takeWhile_cons, ih]

theorem schemeAddress?_append_lf (scheme : String) (h : '\n' ∉ scheme.toList)
    (cs rest : List Char) :
    schemeAddress? scheme (cs ++ '\n' :: rest) = schemeAddress? scheme cs := by
  rw [schemeAddress?, schemeAddress?, dropFront?_append_lf h]
  cases dropFront? scheme.toList cs with
  | none => rfl
  | some host =>
    simp only [Option.map_some, Option.bind_eq_bind, Option.bind_some, takeWhile_append_lf]

theorem seeHere?_cons (s : Char) (cs : List Char) :
    seeHere? (s :: cs) =
      if s = 's' ∨ s = 'S' then (dropFront? "ee ".toList cs).bind address? else none := by
  unfold seeHere?
  split
  · next s' rest heq =>
    obtain ⟨rfl, rfl⟩ := List.cons_eq_cons.1 heq
    simp [dropFront?]
  · next hother =>
    have hnone : dropFront? "ee ".toList cs = none := by
      rw [Option.eq_none_iff_forall_ne_some]
      intro rest hrest
      rw [dropFront?_eq_some_iff] at hrest
      exact hother s rest (by rw [hrest]; rfl)
    rw [hnone, Option.bind_none, ite_self]

theorem seeHere?_append_lf (cs rest : List Char) :
    seeHere? (cs ++ '\n' :: rest) = seeHere? cs := by
  cases cs with
  | nil => rw [List.nil_append, seeHere?_cons, if_neg (by decide), seeHere?]; simp
  | cons s cs =>
    rw [List.cons_append, seeHere?_cons, seeHere?_cons, dropFront?_append_lf (by decide)]
    cases dropFront? "ee ".toList cs with
    | none => rfl
    | some rest' =>
      simp only [Option.map_some, Option.bind_some, address?_eq,
        schemeAddress?_append_lf "http://" (by decide),
        schemeAddress?_append_lf "https://" (by decide)]

/-- Looking through a text goes on behind a line feed as at the start of a text. -/
theorem seeAddress?_append_lf (afterWord : Bool) (cs rest : List Char) :
    seeAddress? afterWord (cs ++ '\n' :: rest) =
      (seeAddress? afterWord cs <|> seeAddress? false rest) := by
  induction cs generalizing afterWord with
  | nil =>
    have hlf : isWord '\n' = false := by decide
    have hnone : (if afterWord = true then none else seeHere? ('\n' :: rest)) = none := by
      rw [seeHere?_cons, if_neg (by decide : ¬ ('\n' = 's' ∨ '\n' = 'S')), ite_self]
    have hstep : seeAddress? afterWord ('\n' :: rest) = seeAddress? false rest := by
      rw [seeAddress?, hnone, hlf]
    rw [List.nil_append, hstep]
    rfl
  | cons c cs ih =>
    rw [List.cons_append, seeAddress?, seeAddress?, ← List.cons_append, seeHere?_append_lf]
    cases (if afterWord = true then none else seeHere? (c :: cs)) with
    | none => exact ih (isWord c)
    | some a => rfl

/-- Looking through joined messages is looking through one after the other. -/
theorem seeAddress?_intercalate (ms : List (List Char)) :
    seeAddress? false (List.intercalate ['\n'] ms) = ms.findSome? (seeAddress? false) := by
  induction ms with
  | nil => rfl
  | cons m ms ih =>
    cases ms with
    | nil =>
      rw [List.intercalate_singleton, List.findSome?_cons, List.findSome?_nil]
      cases seeAddress? false m <;> rfl
    | cons m' ms =>
      rw [List.intercalate_cons_cons, List.append_assoc, List.singleton_append,
        seeAddress?_append_lf, ih, List.findSome?_cons (a := m)]
      cases seeAddress? false m <;> rfl

/-! ## The links of a report -/

theorem code_ne_empty_of_mem_records {lines : List String} {f : Finding} {code : String}
    (hf : f ∈ records lines) (hcode : f.code = some code) : code ≠ "" := by
  obtain ⟨line, -, hline⟩ := List.mem_filterMap.1 hf
  have hparse : parseLine (stripped line) = .ok (some f) := by
    rw [recordOf?] at hline
    split at hline
    · next r hr => rw [hr, hline]
    · exact absurd hline (by simp)
  obtain ⟨_, _, _, -, -, -, hsays⟩ := (parseLine_eq_some_iff _ f).1 hparse
  rcases hsays.body with ⟨message, code', hends, -, hf'⟩ | ⟨-, -, hnone⟩
  · rw [hcode, Option.some.injEq] at hf'
    rw [hf']
    simpa using hends.ne_nil
  · rw [hcode] at hnone
    exact absurd hnone (by simp)

/-- The link of a run that is summed up in one finding. -/
theorem Sums.documents {run : List Finding} {f : Finding} (h : Sums run f)
    (hcodes : ∀ g ∈ run, ∀ code, g.code = some code → code ≠ "") : Documents run f.link := by
  have hsee : seeAddress? false f.message.toList =
      run.findSome? fun g => seeAddress? false g.message.toList := by
    rw [h.message, String.toList_intercalate, List.map_map]
    exact (seeAddress?_intercalate _).trans (by rw [List.findSome?_map]; rfl)
  rw [h.link, findLink.eq_def, hsee, h.code]
  cases haddress : run.findSome? fun g => seeAddress? false g.message.toList with
  | some a =>
    obtain ⟨before, g, after, hrun, hg, hbefore⟩ := List.findSome?_eq_some_iff.1 haddress
    exact .seen hrun ((seeAddress?_eq_some_iff ..).1 hg) fun g hg =>
      (seeAddress?_eq_none_iff _).1 (hbefore g hg)
  | none =>
    have hunseen : ∀ g ∈ run, ∀ a, ¬ SendsTo g.message.toList a := fun g hg =>
      (seeAddress?_eq_none_iff _).1 (List.findSome?_eq_none_iff.1 haddress g hg)
    cases hcode : run.findSome? (·.code) with
    | none => exact .bare hunseen (List.findSome?_eq_none_iff.1 hcode)
    | some code =>
      obtain ⟨before, g, after, rfl, hg, hbefore⟩ := List.findSome?_eq_some_iff.1 hcode
      have hne : code.isEmpty = false := by
        simpa using hcodes g (by simp) code hg
      simp only [hne, Bool.false_eq_true, if_false]
      exact .coded hunseen rfl hg hbefore

/-- Every finding of a report is the sum of a run and is documented where its run is. Every report
can be read in which no number is too long. -/
theorem link_of_run (lines : List String) :
    ((∀ line ∈ lines, Readable (stripped line)) → ∃ fs, parseLines lines = .ok fs) ∧
    ∀ fs, parseLines lines = .ok fs →
      List.Forall₂ (fun run f => Joins run f ∧ Documents run f.link)
        ((records lines).splitBy oneRun) fs := by
  refine ⟨fun hread => ?_, fun fs hparse => ?_⟩
  · exact ⟨_, parseLines_eq fun line hline => parseLine_of_readable (hread line hline)⟩
  · have hcodes : ∀ run ∈ (records lines).splitBy oneRun, ∀ g ∈ run, ∀ code,
        g.code = some code → code ≠ "" := by
      intro run hrun g hg code hcode
      have hmem : g ∈ records lines := by
        rw [← List.flatten_splitBy oneRun (records lines)]
        exact List.mem_flatten.2 ⟨run, hrun, hg⟩
      exact code_ne_empty_of_mem_records hmem hcode
    have hsums := (List.forall₂_and_left _ _).2 ⟨hcodes, sums_of_parseLines_ok hparse⟩
    exact hsums.imp fun run f h => ⟨h.2.toJoins, h.2.documents h.1⟩

/-- A run whose second message ends in an address, with a code in front of it, and an error without
an address. -/
def referring : List String :=
  ["a.py:1: note: oversee http://a.b  [misc]", "a.py:1: note: See https://c.d/e(f).",
    "a.py:1: note: g", "a.py:2: error: see http:// h  [misc]"]

theorem link_of_run_referring :
    ∃ fs, parseLines referring = .ok fs ∧
      List.Forall₂ (fun run f => Joins run f ∧ Documents run f.link)
        ((records referring).splitBy oneRun) fs ∧
      fs.map (·.link) = [some "https://c.d/e(f)",
        some "https://mypy.readthedocs.io/en/stable/_refs.html#code-misc"] := by
  have hread : ∀ line ∈ referring, Readable (stripped line) := by
    have hshort : ∀ line ∈ referring, (stripped line).toList.length ≤ 4300 := by decide
    exact fun line hline => readable_of_length (hshort line hline)
  obtain ⟨fs, hparse⟩ := (link_of_run referring).1 hread
  have hlinks : (parseLines referring).toOption.map (fun fs => fs.map (·.link)) =
      some [some "https://c.d/e(f)",
        some "https://mypy.readthedocs.io/en/stable/_refs.html#code-misc"] := by
    decide +kernel
  rw [hparse] at hlinks
  exact ⟨fs, hparse, (link_of_run referring).2 fs hparse, Option.some.inj hlinks⟩

end Overseer.Output
