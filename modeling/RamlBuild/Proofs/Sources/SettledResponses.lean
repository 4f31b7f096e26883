import RamlBuild.Proofs.Sources.ResponseType

/-!
# Response classes that are opened again

Where the constructors of each response class are ended before the next class, a source whose response
classes were opened keeps them as they are: its constructors are public already, and each class has its
copy constructor. Lines that tell nothing about response classes change nothing about that.

## Main definitions

* `ResponsesClose` — each response class is ended before the next one
* `TellsNothing` — a line that counts for no response class

## Main results

* `openResponses_again` — opening the response classes again changes nothing
* `openResponses_insert` — also with lines that tell nothing put in between
-/

namespace RamlBuild

open Text

open ResponseClass

variable {cls other : ResponseClass} {line new header : Line} {ls out body body' before after : List Line}
  {names : List (List Char)} {name : List Char} {copied copied' : List Char → Prop}

/-- The constructors of a class are ended in lines before any header. -/
def EndsAhead (cls : ResponseClass) (ls : List Line) : Prop :=
  ∃ body last behind, ls = body ++ last :: behind ∧ cls.IsEnd last ∧
    ∀ line ∈ body, ∀ other : ResponseClass, ¬other.IsHeader line

/-- Behind each header the constructors of its class are ended before another header. -/
def ResponsesClose (ls : List Line) : Prop :=
  ∀ before header cls rest, ls = before ++ header :: rest → IsHeader cls header → EndsAhead cls rest

theorem ResponsesClose.of_suffix (h : ResponsesClose ls) (hsuffix : after <:+ ls) :
    ResponsesClose after := by
  obtain ⟨before, rfl⟩ := hsuffix
  intro before' header cls rest heq hheader
  exact h (before ++ before') header cls rest (by rw [heq, List.append_assoc]) hheader

theorem endsAhead_cons :
    EndsAhead cls (line :: ls) ↔
      cls.IsEnd line ∨ (∀ other : ResponseClass, ¬other.IsHeader line) ∧ EndsAhead cls ls := by
  constructor
  · rintro ⟨body, last, behind, heq, hlast, hbody⟩
    cases body with
    | nil =>
      rw [(List.cons.inj heq).1]
      exact .inl hlast
    | cons first body =>
      obtain ⟨rfl, rfl⟩ := List.cons.inj heq
      obtain ⟨hfirst, hbody⟩ := List.forall_mem_cons.1 hbody
      exact .inr ⟨hfirst, body, last, behind, rfl, hlast, hbody⟩
  · rintro (hend | ⟨hline, body, last, behind, rfl, hlast, hbody⟩)
    · exact ⟨[], line, ls, rfl, hend, by simp⟩
    · exact ⟨line :: body, last, behind, rfl, hlast, List.forall_mem_cons.2 ⟨hline, hbody⟩⟩

theorem responsesClose_cons :
    ResponsesClose (line :: ls) ↔ (∀ cls, IsHeader cls line → EndsAhead cls ls) ∧ ResponsesClose ls := by
  constructor
  · intro h
    exact ⟨fun cls hcls => h [] line cls ls rfl hcls, h.of_suffix (List.suffix_cons line ls)⟩
  · rintro ⟨hline, hrest⟩ before header cls rest heq hheader
    cases before with
    | nil =>
      obtain ⟨rfl, rfl⟩ := List.cons.inj heq
      exact hline cls hheader
    | cons first before =>
      obtain ⟨rfl, rfl⟩ := List.cons.inj heq
      exact hrest before header cls rest rfl hheader

instance decidableEndsAhead (cls : ResponseClass) : (ls : List Line) → Decidable (EndsAhead cls ls)
  | [] => isFalse fun ⟨_, _, _, heq, _⟩ => by simp at heq
  | line :: ls =>
    have := decidableEndsAhead cls ls
    decidable_of_iff (cls.endsConstructors line = true ∨ ofHeader? line = none ∧ EndsAhead cls ls) <| by
      rw [endsAhead_cons, endsConstructors_iff, Option.eq_none_iff_forall_ne_some]
      simp only [ne_eq, ofHeader?_eq_some_iff]

instance decidableResponsesClose : (ls : List Line) → Decidable (ResponsesClose ls)
  | [] => isTrue fun before header cls rest heq => by simp at heq
  | line :: ls =>
    have := decidableResponsesClose ls
    decidable_of_iff ((∀ cls, cls ∈ ofHeader? line → EndsAhead cls ls) ∧ ResponsesClose ls) <| by
      simp only [responsesClose_cons, Option.mem_def, ofHeader?_eq_some_iff]

/-- Two lines that open and end the same classes. -/
structure SameEnds (line line' : Line) : Prop where
  isHeader_iff : ∀ cls : ResponseClass, cls.IsHeader line' ↔ cls.IsHeader line
  isEnd_iff : ∀ cls header, IsHeader cls header → (cls.IsEnd line' ↔ cls.IsEnd line)

theorem SameEnds.refl (line : Line) : SameEnds line line :=
  ⟨fun _ => Iff.rfl, fun _ _ _ => Iff.rfl⟩

theorem EndsAhead.congr {ls' : List Line} (hcls : cls.IsHeader header)
    (hsame : List.Forall₂ SameEnds ls ls') (h : EndsAhead cls ls) : EndsAhead cls ls' := by
  induction hsame with
  | nil => exact h
  | @cons line line' _ _ hline _ ih =>
    rcases endsAhead_cons.1 h with hend | ⟨hplain, hrest⟩
    · exact endsAhead_cons.2 (.inl ((hline.isEnd_iff cls header hcls).2 hend))
    · exact endsAhead_cons.2 (.inr ⟨fun other => mt (hline.isHeader_iff other).1 (hplain other), ih hrest⟩)

/-- Whether the classes are ended depends on the lines that open and end them. -/
theorem ResponsesClose.congr {ls' : List Line} (h : ResponsesClose ls)
    (hsame : List.Forall₂ SameEnds ls ls') : ResponsesClose ls' := by
  induction hsame with
  | nil => exact h
  | @cons line line' _ _ hline hrest ih =>
    obtain ⟨hends, hclose⟩ := responsesClose_cons.1 h
    refine responsesClose_cons.2 ⟨fun cls hcls => ?_, ih hclose⟩
    have hheader := (hline.isHeader_iff cls).1 hcls
    exact (hends cls hheader).congr hheader hrest

/-! ### Lines that are written among the constructors -/

namespace ResponseClass

/-- A header, its indent aside, begins with its keyword. -/
theorem IsHeader.trimStart_eq (h : cls.IsHeader line) :
    trimStart line = "class ".toList ++ cls.name ++ " extends ResponseDelegate \x7b".toList := by
  rw [h.eq, List.append_assoc, List.append_assoc, List.append_assoc]
  exact trimStart_append (fun c hc => by rw [h.indent c hc]; decide) (by decide)

/-- A line is no header when another character stands first in it. -/
theorem not_isHeader_of_trimStart {c : Char} {rest : Line} (htrim : trimStart line = c :: rest)
    (hc : c ≠ 'c') : ¬cls.IsHeader line := by
  intro h
  rw [h.trimStart_eq] at htrim
  exact hc (List.cons.inj htrim).1.symm

theorem IsHeader.blank_indent (h : cls.IsHeader header) : Blank cls.indent := fun c hc => by
  rw [h.indent c hc]
  decide

theorem blank_replicate (n : Nat) : Blank (List.replicate n ' ') := fun c hc => by
  rw [List.eq_of_mem_replicate hc]
  decide

/-- A constructor of the class that is public. -/
theorem trimStart_public {blanks rest : Line} (hblanks : Blank blanks) :
    trimStart (blanks ++ "public ".toList ++ cls.name ++ '(' :: rest) =
      "public ".toList ++ (cls.name ++ '(' :: rest) := by
  rw [List.append_assoc, List.append_assoc]
  exact trimStart_append hblanks (by decide)

/-- A public constructor does not end the constructors. -/
theorem IsHeader.not_isEnd_public (h : cls.IsHeader header) {blanks rest : Line}
    (hblanks : Blank blanks) : ¬cls.IsEnd (blanks ++ "public ".toList ++ cls.name ++ '(' :: rest) := by
  rw [← endsConstructors_iff, Bool.not_eq_true, endsConstructors, trimStart_public hblanks,
    Bool.or_eq_false_iff]
  constructor
  · rw [decide_eq_false_iff_not]
    intro heq
    have htrim : trimStart (blanks ++ "public ".toList ++ cls.name ++ '(' :: rest) =
        "public ".toList ++ (cls.name ++ '(' :: rest) := trimStart_public hblanks
    rw [heq, trimStart_append h.blank_indent (by decide)] at htrim
    exact absurd (List.cons.inj htrim).1 (by decide)
  · -- The name has no blank, so no other modifier stands before it.
    have hnot : ¬"public ".toList <+: cls.name ++ '(' :: rest := by
      rintro ⟨tail, htail⟩
      have heq : "public".toList ++ ' ' :: tail = cls.name ++ '(' :: rest := by simpa using htail
      have hname := eq_of_append_cons_eq (p := isWordChar) (List.all_eq_true.1 (by decide)) h.name
        (by decide) (by decide) heq
      rw [hname] at heq
      exact absurd (List.cons.inj (List.append_cancel_left heq)).1 (by decide)
    have hmember := dropPublic_append 1 hnot
    rw [show (List.replicate 1 "public ".toList).flatten = "public ".toList by simp] at hmember
    rw [hmember, isConstructor, Bool.and_eq_false_iff, Bool.not_eq_false']
    right
    rw [List.isPrefixOf_iff_prefix]
    exact ⟨rest, by simp⟩

/-- What is public is not made public. -/
theorem not_widens_of_trimStart {rest : Line} (htrim : trimStart line = rest)
    (hrest : ∀ modifier ∈ hidingModifiers, ¬modifier <+: rest) : ¬cls.Widens line new := by
  rintro ⟨blanks, modifier, rest', hblanks, hmodifier, rfl, -⟩
  obtain ⟨word, hword⟩ := head?_of_mem_hidingModifiers hmodifier
  refine hrest modifier hmodifier ⟨cls.name ++ '(' :: rest', ?_⟩
  rw [← htrim, List.append_assoc, List.append_assoc, hword]
  exact (trimStart_append hblanks (show isBlank 'p' = false by decide)).symm

/-- A line is not made public when its first mark is no `p`, or the next one no `r`. -/
theorem not_widens_of_head {c d : Char} {rest : Line} (htrim : trimStart line = c :: d :: rest)
    (hmarks : c ≠ 'p' ∨ d ≠ 'r') : ¬cls.Widens line new := by
  refine not_widens_of_trimStart htrim fun modifier hmodifier ⟨tail, htail⟩ => ?_
  obtain ⟨word, rfl⟩ := head?_of_mem_hidingModifiers hmodifier
  obtain ⟨hc, hrest⟩ := List.cons.inj htail
  rcases hmarks with hp | hr
  · exact hp hc.symm
  · exact hr (List.cons.inj hrest).1.symm

theorem not_widens_of_public (h : startsWith "public " line = true) : ¬cls.Widens line new := by
  obtain ⟨rest, rfl⟩ := startsWith_iff.1 h
  exact not_widens_of_head (c := 'p') (d := 'u') rfl (.inr (by decide))

/-- A line that stays where it stands among the constructors of the class. -/
structure Stays (cls : ResponseClass) (line : Line) : Prop where
  not_widens : ∀ new, ¬cls.Widens line new
  not_isEnd : ¬cls.IsEnd line
  not_isHeader : ∀ other : ResponseClass, ¬other.IsHeader line

theorem IsHeader.stays_public (h : cls.IsHeader header) {blanks rest : Line} (hblanks : Blank blanks) :
    cls.Stays (blanks ++ "public ".toList ++ cls.name ++ '(' :: rest) where
  not_widens _ := not_widens_of_head (trimStart_public hblanks) (.inr (by decide))
  not_isEnd := h.not_isEnd_public hblanks
  not_isHeader _ := not_isHeader_of_trimStart (trimStart_public hblanks) (by decide)

/-- The first line of the copy constructor declares a public one. -/
theorem IsHeader.exists_copyHeader_eq (h : cls.IsHeader header) :
    ∃ blanks rest, Blank blanks ∧
      cls.copyHeader = blanks ++ "public ".toList ++ cls.name ++ '(' :: rest := by
  refine ⟨cls.indent ++ List.replicate 2 ' ', "ResponseDelegate response) \x7b".toList, ?_, ?_⟩
  · intro c hc
    rcases List.mem_append.1 hc with hc | hc
    · exact h.blank_indent c hc
    · exact blank_replicate 2 c hc
  · rw [copyHeader, List.append_assoc cls.indent]
    simp [List.replicate]

theorem IsHeader.stays_copyHeader (h : cls.IsHeader header) : cls.Stays cls.copyHeader := by
  obtain ⟨blanks, rest, hblanks, heq⟩ := h.exists_copyHeader_eq
  rw [heq]
  exact h.stays_public hblanks

/-- What becomes of a line among the constructors stays, when the line is no header and does not end
them. -/
theorem IsHeader.stays_of_opens (h : cls.IsHeader header) (hopens : cls.Opens line new)
    (hend : ¬cls.IsEnd line) (hplain : ∀ other : ResponseClass, ¬other.IsHeader line) :
    cls.Stays new := by
  rcases hopens with ⟨blanks, _, rest, hblanks, -, -, rfl⟩ | ⟨hnot, rfl⟩
  · exact h.stays_public hblanks
  · exact ⟨not_exists.1 hnot, hend, hplain⟩

theorem IsHeader.stays_of_forall₂ (h : cls.IsHeader header) (hopens : List.Forall₂ cls.Opens body body')
    (hend : ∀ line ∈ body, ¬cls.IsEnd line)
    (hplain : ∀ line ∈ body, ∀ other : ResponseClass, ¬other.IsHeader line) :
    ∀ line ∈ body', cls.Stays line := by
  induction hopens with
  | nil => simp
  | cons hline _ ih =>
    obtain ⟨hend, hends⟩ := List.forall_mem_cons.1 hend
    obtain ⟨hplain, hplains⟩ := List.forall_mem_cons.1 hplain
    exact List.forall_mem_cons.2 ⟨h.stays_of_opens hline hend hplain, ih hends hplains⟩

theorem forall₂_opens_self (h : ∀ line ∈ body, cls.Stays line) : List.Forall₂ cls.Opens body body := by
  induction body with
  | nil => exact .nil
  | cons line rest ih =>
    obtain ⟨hline, hrest⟩ := List.forall_mem_cons.1 h
    exact .cons (.inr ⟨not_exists.2 hline.not_widens, rfl⟩) (ih hrest)

/-- What stands behind the indent of a class and more spaces. -/
theorem IsHeader.trimStart_indent (h : cls.IsHeader header) {spaces rest : Line} {c : Char}
    (hspaces : Blank spaces) (hc : isBlank c = false) :
    trimStart (cls.indent ++ (spaces ++ c :: rest)) = c :: rest := by
  rw [← List.append_assoc]
  refine trimStart_append (fun d hd => ?_) hc
  rcases List.mem_append.1 hd with hd | hd
  · exact h.blank_indent d hd
  · exact hspaces d hd

/-- The marks that the lines of a copy constructor begin with. -/
theorem IsHeader.head?_copyConstructor (h : cls.IsHeader header) (hline : line ∈ cls.copyConstructor) :
    ∀ c ∈ (trimStart line).head?, c ∈ ['p', 's', '\x7d'] := by
  rw [copyConstructor, List.mem_cons, List.mem_cons, List.mem_cons, List.mem_singleton] at hline
  have hmark : ∀ {line rest : Line} (n : Nat), ∀ c ∈ ['p', 's', '\x7d'],
      line = cls.indent ++ (List.replicate n ' ' ++ c :: rest) →
      ∀ d ∈ (trimStart line).head?, d ∈ ['p', 's', '\x7d'] := by
    rintro line rest n c hmem rfl d hd
    have hmarks : ['p', 's', '\x7d'].all (!isBlank ·) = true := by decide
    have hc : isBlank c = false := by simpa using List.all_eq_true.1 hmarks c hmem
    rw [h.trimStart_indent (blank_replicate n) hc] at hd
    rwa [← Option.some.inj hd]
  rcases hline with rfl | rfl | rfl | rfl
  · exact hmark 2 'p' (by decide) (by rw [copyHeader, List.append_assoc, List.append_assoc]; rfl)
  · exact hmark 4 's' (by decide) rfl
  · exact hmark 2 '\x7d' (by decide) rfl
  · simp [trimStart]

/-- The lines of the copy constructor stay. -/
theorem IsHeader.stays_copyConstructor (h : cls.IsHeader header) :
    ∀ line ∈ cls.copyConstructor, cls.Stays line := by
  have hsuper : trimStart (cls.indent ++ "    super(response.delegate, response.entity);".toList) =
      "super(response.delegate, response.entity);".toList :=
    h.trimStart_indent (blank_replicate 4) (by decide)
  have hbrace : trimStart (cls.indent ++ "  \x7d".toList) = ['\x7d'] :=
    h.trimStart_indent (blank_replicate 2) (by decide)
  have hend : ∀ line, (∀ rest, line ≠ cls.indent ++ '\x7d' :: rest) →
      startsWith "public " (trimStart line) = false → ¬cls.IsEnd line := by
    intro line hne hpublic
    rw [← endsConstructors_iff, Bool.not_eq_true, endsConstructors, hpublic, Bool.false_and,
      Bool.or_false, decide_eq_false_iff_not]
    exact hne []
  rw [copyConstructor]
  refine List.forall_mem_cons.2 ⟨h.stays_copyHeader, List.forall_mem_cons.2 ⟨?_,
    List.forall_mem_cons.2 ⟨?_, List.forall_mem_singleton.2 ?_⟩⟩⟩
  · refine ⟨fun _ => not_widens_of_head hsuper (.inl (by decide)), ?_,
      fun _ => not_isHeader_of_trimStart hsuper (by decide)⟩
    refine hend _ (fun rest heq => ?_) (by rw [hsuper]; decide)
    exact absurd (List.cons.inj (List.append_cancel_left heq)).1 (by decide)
  · refine ⟨fun _ => not_widens_of_trimStart hbrace ?_, ?_,
      fun _ => not_isHeader_of_trimStart hbrace (by decide)⟩
    · decide
    · refine hend _ (fun rest heq => ?_) (by rw [hbrace]; decide)
      exact absurd (List.cons.inj (List.append_cancel_left heq)).1 (by decide)
  · refine ⟨fun _ => not_widens_of_trimStart rfl ?_, ?_, fun other hother => ?_⟩
    · decide
    · refine hend _ (fun rest heq => ?_) rfl
      exact absurd heq (by simp)
    · exact absurd hother.trimStart_eq (by simp [trimStart])

/-- The line that ends the constructors opens no class. -/
theorem IsEnd.not_isHeader (hheader : cls.IsHeader header) (h : cls.IsEnd line) :
    ¬other.IsHeader line := by
  rcases h with rfl | ⟨blanks, n, member, hblanks, rfl, -, -⟩
  · exact not_isHeader_of_trimStart (trimStart_append hheader.blank_indent (by decide)) (by decide)
  · have htrim : trimStart (blanks ++ (List.replicate (n + 1) "public ".toList).flatten ++ member) =
        'p' :: ("ublic ".toList ++ (List.replicate n "public ".toList).flatten ++ member) := by
      rw [List.append_assoc]
      exact trimStart_append hblanks (by decide)
    exact not_isHeader_of_trimStart htrim (by decide)

end ResponseClass

/-! ### Copy constructors that are found again -/

theorem copyAhead_append (h : ∀ line ∈ body, ∀ other : ResponseClass, ¬other.IsHeader line) :
    CopyAhead cls (body ++ after) ↔ cls.copyHeader ∈ body ∨ CopyAhead cls after := by
  induction body with
  | nil => simp
  | cons line rest ih =>
    obtain ⟨hline, hrest⟩ := List.forall_mem_cons.1 h
    rw [List.cons_append, copyAhead_cons, ih hrest, List.mem_cons, eq_comm (a := line),
      and_iff_right hline, or_assoc]

theorem hasCopy_append_iff (h : ∀ line ∈ body, ∀ other : ResponseClass, ¬other.IsHeader line) :
    HasCopy (body ++ after) name ↔ HasCopy after name := by
  induction body with
  | nil => rfl
  | cons line rest ih =>
    obtain ⟨hline, hrest⟩ := List.forall_mem_cons.1 h
    rw [List.cons_append, hasCopy_cons, ih hrest]
    exact or_iff_right fun ⟨other, hother, _⟩ => hline other hother

theorem HasCopy.append (h : HasCopy after name) (before : List Line) :
    HasCopy (before ++ after) name := by
  obtain ⟨cls, header, ahead, rest, rfl, hheader, hname, hcopy⟩ := h
  exact ⟨cls, header, before ++ ahead, rest, by simp, hheader, hname, hcopy⟩

/-- A copy constructor before any header stays there. -/
theorem Opened.copyAhead (h : Opened copied ls out) (hcls : cls.IsHeader header)
    (hcopy : CopyAhead cls ls) : CopyAhead cls out := by
  -- The first header ends the search, so the lines of classes need no look.
  have hstop : ∀ {line : Line} {ls : List Line} {other : ResponseClass}, other.IsHeader line →
      ¬CopyAhead cls (line :: ls) := by
    intro line ls other hother hcopy
    rcases copyAhead_cons.1 hcopy with rfl | ⟨hnot, -⟩
    · exact hcls.not_isHeader_copyHeader hother
    · exact hnot other hother
  induction h with
  | done => exact hcopy
  | outside plain _ ih =>
    rcases copyAhead_cons.1 hcopy with heq | ⟨hnot, hrest⟩
    · exact copyAhead_cons.2 (.inl heq)
    · exact copyAhead_cons.2 (.inr ⟨hnot, ih hrest⟩)
  | ended opens => exact absurd hcopy (hstop opens)
  | unended opens => exact absurd hcopy (hstop opens)

/-- What is written among the constructors of a class opens no class. -/
theorem ResponseClass.IsHeader.stays_of_ended {copy : List Line} (h : cls.IsHeader header)
    (hbody : ∀ line ∈ body', cls.Stays line)
    (hcopies : copied cls.name ∧ copy = [] ∨ ¬copied cls.name ∧ copy = cls.copyConstructor) :
    ∀ line ∈ body' ++ copy, cls.Stays line := by
  intro line hline
  rcases List.mem_append.1 hline with hline | hline
  · exact hbody line hline
  · rcases hcopies with ⟨-, rfl⟩ | ⟨-, rfl⟩
    · exact absurd hline List.not_mem_nil
    · exact h.stays_copyConstructor line hline

/-- The copy constructor is public, so it is among the lines of a body as it was. -/
theorem ResponseClass.IsHeader.copyHeader_mem (h : cls.IsHeader header)
    (hopened : List.Forall₂ cls.Opens body body') (hmem : cls.copyHeader ∈ body) :
    cls.copyHeader ∈ body' := by
  induction hopened with
  | nil => exact hmem
  | cons hline _ ih =>
    rcases List.mem_cons.1 hmem with rfl | hmem
    · rcases hline with hwidens | ⟨-, rfl⟩
      · exact absurd hwidens (h.stays_copyHeader.not_widens _)
      · exact List.mem_cons_self
    · exact List.mem_cons_of_mem _ (ih hmem)

/-- Up to the line that ends the constructors of a class there is no other header. -/
theorem ResponsesClose.not_isHeader (h : ResponsesClose (header :: (body ++ after)))
    (hopens : cls.IsHeader header) (hinside : ∀ line ∈ body, ¬cls.IsEnd line) :
    ∀ line ∈ body, ∀ other : ResponseClass, ¬other.IsHeader line := by
  obtain ⟨body₀, last, behind, heq, hlast, hplain⟩ := h [] header cls _ rfl hopens
  intro line hline
  refine hplain line ?_
  rcases List.append_eq_append_iff.1 heq with ⟨tail, rfl, -⟩ | ⟨tail, rfl, htail⟩
  · exact List.mem_append_left _ hline
  · -- Otherwise the line that ends the constructors is among those that do not.
    cases tail with
    | nil => rwa [List.append_nil] at hline
    | cons first tail =>
      obtain rfl := (List.cons.inj htail).1
      exact absurd hlast (hinside _ (by simp))

theorem ResponsesClose.not_unended (h : ResponsesClose (header :: body)) (hopens : cls.IsHeader header) :
    ¬∀ line ∈ body, ¬cls.IsEnd line := by
  intro hinside
  obtain ⟨body₀, last, behind, rfl, hlast, -⟩ := h [] header cls _ rfl hopens
  exact hinside last (by simp) hlast

/-- A copy constructor that a class had is still there. -/
theorem Opened.hasCopy (h : Opened copied ls out) (hclose : ResponsesClose ls)
    (hcopy : HasCopy ls name) : HasCopy out name := by
  induction h with
  | done => exact hcopy
  | @outside line ls out plain _ ih =>
    rcases hasCopy_cons.1 hcopy with ⟨cls, hcls, -⟩ | hrest
    · exact absurd hcls (plain cls)
    · exact hasCopy_cons.2 (.inr (ih (hclose.of_suffix (List.suffix_cons line ls)) hrest))
  | @ended cls header last body body' copy ls out opens inside opened ends copies rest ih =>
    have hplain := hclose.not_isHeader opens inside
    have hstays := opens.stays_of_ended (opens.stays_of_forall₂ opened inside hplain) copies
    have hwritten := fun line hline => (hstays line hline).not_isHeader
    have hlast : ∀ line ∈ [last], ∀ other : ResponseClass, ¬other.IsHeader line :=
      List.forall_mem_singleton.2 fun _ => ends.not_isHeader opens
    rw [← List.append_assoc]
    rcases hasCopy_cons.1 hcopy with ⟨other, hother, rfl, hahead⟩ | hbehind
    · obtain rfl := opens.eq_cls hother
      refine hasCopy_cons.2 (.inl ⟨other, opens, rfl, (copyAhead_append hwritten).2 ?_⟩)
      rcases (copyAhead_append hplain).1 hahead with hmem | hafter
      · exact .inl (List.mem_append_left _ (opens.copyHeader_mem opened hmem))
      · rcases copyAhead_cons.1 hafter with heq | ⟨hnot, hafter⟩
        · exact absurd (heq ▸ ends) opens.stays_copyHeader.not_isEnd
        · exact .inr (copyAhead_cons.2 (.inr ⟨hnot, rest.copyAhead opens hafter⟩))
    · have hrest := (hasCopy_append_iff hlast).1 ((hasCopy_append_iff hplain).1 hbehind)
      have hclose : ResponsesClose ls := hclose.of_suffix ⟨header :: (body ++ [last]), by simp⟩
      simpa using (ih hclose hrest).append (header :: (body' ++ copy ++ [last]))
  | unended opens inside => exact absurd inside (hclose.not_unended opens)

/-! ### Opening them again -/

/-- What becomes of a source stays, when each class that had a copy constructor has one. -/
theorem Opened.again (h : Opened copied ls out) (hclose : ResponsesClose ls)
    (hcopied : ∀ name, copied name ∨ HasCopy out name → copied' name) : Opened copied' out out := by
  induction h with
  | done => exact .done
  | @outside line ls out plain _ ih =>
    refine .outside plain (ih (hclose.of_suffix (List.suffix_cons line ls)) fun name hname => hcopied name ?_)
    exact hname.imp_right fun hcopy => hcopy.append [line]
  | @ended cls header last body body' copy ls out opens inside opened ends copies rest ih =>
    have hplain := hclose.not_isHeader opens inside
    have hstays := opens.stays_of_ended (opens.stays_of_forall₂ opened inside hplain) copies
    have hcls : copied' cls.name := by
      rcases copies with ⟨hcls, -⟩ | ⟨-, rfl⟩
      · exact hcopied cls.name (.inl hcls)
      · refine hcopied cls.name (.inr (hasCopy_cons.2 (.inl ⟨cls, opens, rfl, ?_⟩)))
        rw [← List.append_assoc, copyAhead_append fun line hline => (hstays line hline).not_isHeader]
        exact .inl (List.mem_append_right _ List.mem_cons_self)
    have hrest : Opened copied' out out := by
      have hclose : ResponsesClose ls := hclose.of_suffix ⟨header :: (body ++ [last]), by simp⟩
      refine ih hclose fun name hname => hcopied name (hname.imp_right fun hcopy => ?_)
      simpa using hcopy.append (header :: (body' ++ copy ++ [last]))
    have hended : Opened copied' (header :: ((body' ++ copy) ++ last :: out))
        (header :: ((body' ++ copy) ++ ([] ++ last :: out))) :=
      .ended opens (fun line hline => (hstays line hline).not_isEnd) (forall₂_opens_self hstays) ends
        (.inl ⟨hcls, rfl⟩) hrest
    simpa using hended
  | unended opens inside => exact absurd inside (hclose.not_unended opens)

/-- The classes that are found to have their copy constructor in a source. -/
theorem mem_namesWithCopy_none_iff : name ∈ namesWithCopy none ls ↔ HasCopy ls name := by
  rw [mem_namesWithCopy_iff (by simp)]
  simp

/-- The lines of a source with its response classes opened. -/
def openedLines (ls : List Line) : List Line :=
  openResponses (namesWithCopy none ls) none ls

theorem patchResponseTypes_eq (source : String) :
    patchResponseTypes source = ofLines (openedLines (lines source)) := rfl

/-- Response classes that were opened are not opened again. -/
theorem openedLines_again (hclose : ResponsesClose ls) : openedLines (openedLines ls) = openedLines ls := by
  have hopened : Opened (HasCopy ls) ls (openedLines ls) :=
    opened_openResponses (fun _ => mem_namesWithCopy_none_iff) ls
  have hagain : Opened (HasCopy (openedLines ls)) (openedLines ls) (openedLines ls) := by
    refine hopened.again hclose ?_
    rintro name (hcopy | hcopy)
    · exact hopened.hasCopy hclose hcopy
    · exact hcopy
  exact (eq_openResponses (fun _ => mem_namesWithCopy_none_iff) hagain).symm

/-! ### Lines that tell nothing -/

/-- A line that counts for no response class. -/
structure TellsNothing (line : Line) : Prop where
  not_isHeader : ∀ cls : ResponseClass, ¬cls.IsHeader line
  stays : ∀ cls header, IsHeader cls header → cls.Stays line
  ne_copyHeader : ∀ cls header, IsHeader cls header → line ≠ cls.copyHeader

/-- A line whose first mark begins no header, no member and no end of a class tells nothing. -/
theorem tellsNothing_of_head (h : ∀ c ∈ (trimStart line).head?, c ≠ 'c' ∧ c ≠ 'p' ∧ c ≠ '\x7d') :
    TellsNothing line := by
  have hpublic : startsWith "public " (trimStart line) = false := by
    rw [← Bool.not_eq_true, startsWith_iff]
    rintro ⟨rest, hrest⟩
    rw [← hrest] at h
    exact (h 'p' rfl).2.1 rfl
  have hheader : ∀ cls : ResponseClass, ¬cls.IsHeader line := by
    intro cls hcls
    rw [hcls.trimStart_eq] at h
    exact (h 'c' rfl).1 rfl
  refine ⟨hheader, fun cls header hcls => ⟨fun new hwidens => ?_, fun hend => ?_, hheader⟩,
    fun cls header hcls heq => ?_⟩
  · obtain ⟨blanks, modifier, rest, hblanks, hmodifier, rfl, -⟩ := hwidens
    obtain ⟨word, rfl⟩ := head?_of_mem_hidingModifiers hmodifier
    rw [List.append_assoc, List.append_assoc] at h
    exact (h 'p' (head?_trimStart hblanks (by decide))).2.1 rfl
  · rw [← endsConstructors_iff, endsConstructors, hpublic, Bool.false_and, Bool.or_false,
      decide_eq_true_eq] at hend
    rw [hend] at h
    exact (h '\x7d' (head?_trimStart hcls.blank_indent (by decide))).2.2 rfl
  · obtain ⟨blanks, rest, hblanks, hcopy⟩ := hcls.exists_copyHeader_eq
    rw [heq, hcopy, trimStart_public hblanks] at h
    exact (h 'p' rfl).2.1 rfl

theorem SameEnds.of_tellsNothing {line' : Line} (h : TellsNothing line) (h' : TellsNothing line') :
    SameEnds line line' where
  isHeader_iff cls := iff_of_false (h'.not_isHeader cls) (h.not_isHeader cls)
  isEnd_iff cls header hcls :=
    iff_of_false (h'.stays cls header hcls).not_isEnd (h.stays cls header hcls).not_isEnd

/-- A line that declares a public static member. -/
def DeclaresStatic (line : Line) : Prop :=
  ∃ blanks rest, Blank blanks ∧ line = (blanks ++ "public".toList) ++ ' ' :: ("static".toList ++ ' ' :: rest)

/-- A static member opens no class, and ends the constructors of any. -/
theorem SameEnds.of_declaresStatic {line' : Line} (h : DeclaresStatic line) (h' : DeclaresStatic line') :
    SameEnds line line' := by
  have hheader : ∀ {line : Line} {cls : ResponseClass}, DeclaresStatic line → ¬cls.IsHeader line := by
    rintro _ cls ⟨blanks, rest, hblanks, rfl⟩
    have htrim : trimStart ((blanks ++ "public".toList) ++ ' ' :: ("static".toList ++ ' ' :: rest)) =
        'p' :: ("ublic".toList ++ ' ' :: ("static".toList ++ ' ' :: rest)) := by
      rw [List.append_assoc]
      exact trimStart_append hblanks (by decide)
    exact not_isHeader_of_trimStart htrim (by decide)
  have hend : ∀ {line header : Line} {cls : ResponseClass}, cls.IsHeader header → DeclaresStatic line →
      cls.IsEnd line := by
    rintro _ header cls hcls ⟨blanks, rest, hblanks, rfl⟩
    refine .inr ⟨blanks, 0, "static".toList ++ ' ' :: rest, hblanks, by simp, ?_, ?_⟩
    · exact fun hpublic => absurd (List.cons_prefix_cons.1 hpublic).1 (by decide)
    · rintro ⟨tail, htail⟩
      have heq : cls.name ++ '(' :: tail = "static".toList ++ ' ' :: rest := by simpa using htail
      have hname := eq_of_append_cons_eq (p := isWordChar) hcls.name (List.all_eq_true.1 (by decide))
        (by decide) (by decide) heq
      rw [hname] at heq
      exact absurd (List.cons.inj (List.append_cancel_left heq)).1 (by decide)
  exact ⟨fun _ => iff_of_false (hheader h') (hheader h),
    fun _ _ hcls => iff_of_true (hend hcls h') (hend hcls h)⟩

section Insert

variable {block : List Line} {current : Option ResponseClass}

theorem ofHeader?_of_tellsNothing (h : TellsNothing line) : ofHeader? line = none := by
  rw [Option.eq_none_iff_forall_ne_some]
  exact fun cls hcls => h.not_isHeader cls (ofHeader?_eq_some_iff.1 hcls)

theorem namesWithCopy_append_of_tellsNothing (hblock : ∀ line ∈ block, TellsNothing line)
    (hcurrent : ∀ cls ∈ current, ∃ header, IsHeader cls header) :
    namesWithCopy current (block ++ after) = namesWithCopy current after := by
  induction block with
  | nil => rfl
  | cons line rest ih =>
    obtain ⟨hline, hrest⟩ := List.forall_mem_cons.1 hblock
    rw [← ih hrest, List.cons_append]
    cases current with
    | none => simp only [namesWithCopy, ofHeader?_of_tellsNothing hline]
    | some cls =>
      obtain ⟨header, hheader⟩ := hcurrent cls rfl
      simp only [namesWithCopy, ofHeader?_of_tellsNothing hline]
      exact if_neg (hline.ne_copyHeader cls header hheader)

theorem namesWithCopy_insert (hblock : ∀ line ∈ block, TellsNothing line)
    (hcurrent : ∀ cls ∈ current, ∃ header, IsHeader cls header) :
    namesWithCopy current (before ++ (block ++ after)) = namesWithCopy current (before ++ after) := by
  induction before generalizing current with
  | nil => exact namesWithCopy_append_of_tellsNothing hblock hcurrent
  | cons line rest ih =>
    rw [List.cons_append, List.cons_append]
    cases hheader : ofHeader? line with
    | none =>
      cases current with
      | none => simp only [namesWithCopy, hheader, ih hcurrent]
      | some cls => simp only [namesWithCopy, hheader, ih hcurrent]
    | some cls =>
      simp only [namesWithCopy, hheader]
      exact ih (by rintro _ ⟨⟩; exact ⟨line, ofHeader?_eq_some_iff.1 hheader⟩)

/-- Lines that tell nothing are kept, also among the constructors of a class. -/
theorem openResponses_append_of_tellsNothing (hblock : ∀ line ∈ block, TellsNothing line)
    (hcurrent : ∀ cls ∈ current, ∃ header, IsHeader cls header) :
    openResponses names current (block ++ after) = block ++ openResponses names current after := by
  induction block with
  | nil => rfl
  | cons line rest ih =>
    obtain ⟨hline, hrest⟩ := List.forall_mem_cons.1 hblock
    rw [List.cons_append]
    cases current with
    | none => rw [openResponses, ofHeader?_of_tellsNothing hline, ih hrest, List.cons_append]
    | some cls =>
      obtain ⟨header, hheader⟩ := hcurrent cls rfl
      have hstays := hline.stays cls header hheader
      have hnone : cls.widenConstructor? line = none := by
        rw [Option.eq_none_iff_forall_ne_some]
        exact fun new hnew => hstays.not_widens new (widenConstructor?_eq_some_iff.1 hnew)
      rw [openResponses]
      simp only [hnone]
      rw [if_neg (mt endsConstructors_iff.1 hstays.not_isEnd), ih hrest, List.cons_append]

/-- Where every line is kept, every line is kept with lines put in between that tell nothing. -/
theorem openResponses_insert (hblock : ∀ line ∈ block, TellsNothing line)
    (hcurrent : ∀ cls ∈ current, ∃ header, IsHeader cls header)
    (h : openResponses names current (before ++ after) = before ++ after) :
    openResponses names current (before ++ (block ++ after)) = before ++ (block ++ after) := by
  induction before generalizing current with
  | nil =>
    rw [List.nil_append] at h ⊢
    rw [openResponses_append_of_tellsNothing hblock hcurrent, h]
  | cons line rest ih =>
    have hkeep : ∀ {next : Option ResponseClass} {first : Line},
        (∀ cls ∈ next, ∃ header, IsHeader cls header) →
        first :: openResponses names next (rest ++ after) = line :: (rest ++ after) →
        first :: openResponses names next (rest ++ (block ++ after)) =
          line :: (rest ++ (block ++ after)) := by
      intro next first hnext heq
      rw [ih hnext (List.cons.inj heq).2, (List.cons.inj heq).1]
    rw [List.cons_append] at h ⊢
    cases current with
    | none =>
      rw [openResponses] at h ⊢
      exact hkeep (fun cls hcls => ⟨line, ofHeader?_eq_some_iff.1 hcls⟩) h
    | some cls =>
      obtain ⟨header, hheader⟩ := hcurrent cls rfl
      rw [openResponses] at h ⊢
      cases hwidened : cls.widenConstructor? line with
      | some widened =>
        simp only [hwidened] at h ⊢
        exact hkeep hcurrent h
      | none =>
        simp only [hwidened] at h ⊢
        split at h
        · rename_i hend
          split at h
          · rename_i hcopied
            rw [if_pos hend, if_pos hcopied]
            exact hkeep (by simp) h
          · -- A copy constructor would stand in place of the line.
            have heq : cls.copyHeader = line := (List.cons.inj h).1
            exact absurd (endsConstructors_iff.1 (heq ▸ hend)) hheader.stays_copyHeader.not_isEnd
        · rename_i hend
          rw [if_neg hend]
          exact hkeep hcurrent h

/-- Where no response class is opened, none is with lines put in between that tell nothing. -/
theorem openedLines_insert (hblock : ∀ line ∈ block, TellsNothing line)
    (h : openedLines (before ++ after) = before ++ after) :
    openedLines (before ++ (block ++ after)) = before ++ (block ++ after) := by
  rw [openedLines, namesWithCopy_insert hblock (by simp)]
  exact openResponses_insert hblock (by simp) h

end Insert

end RamlBuild
