import RamlBuild.Proofs.Sources.ResourcePaths
import RamlBuild.Proofs.Text.Words
import RamlBuild.Sources.ResponseType

/-!
# What becomes of response classes

A source with its response classes opened is read side by side with the source itself. Outside of the
constructors of response classes every line stays; within them a hidden constructor is made public and
every other line stays; and before the line that ends them there is the copy constructor, unless the
source has one for a class of that name.

## Main definitions

* `ResponseClass.IsHeader`, `ResponseClass.Widens`, `ResponseClass.IsEnd` — the lines that count
* `HasCopy` — a class of some name has its copy constructor
* `Opened` — a source and what becomes of it, class by class

## Main results

* `mem_namesWithCopy_iff` — the classes that are found to have their copy constructor
* `opened_openResponses`, `eq_openResponses` — the scan writes what the reading side by side says, and
  nothing else does
* `opened_patchResponseTypes` — what becomes of a source
-/

namespace RamlBuild

open Text

variable {cls : ResponseClass} {line new header : Line} {ls out body body' : List Line}
  {name member rest : List Char} {names : List (List Char)} {copied : List Char → Prop}

namespace ResponseClass

/-! ### The lines that count -/

/-- The line that opens a class: its indent of spaces, its name, and that it is a response. -/
structure IsHeader (cls : ResponseClass) (line : Line) : Prop where
  indent_ne_nil : cls.indent ≠ []
  indent : ∀ c ∈ cls.indent, c = ' '
  name_ne_nil : cls.name ≠ []
  name : ∀ c ∈ cls.name, isWordChar c
  eq : line = cls.indent ++ "class ".toList ++ cls.name ++ " extends ResponseDelegate \x7b".toList

/-- A line with a hidden constructor of the class, and the line with that constructor made public. -/
def Widens (cls : ResponseClass) (line new : Line) : Prop :=
  ∃ blanks modifier rest, Blank blanks ∧ modifier ∈ hidingModifiers ∧
    line = blanks ++ modifier ++ cls.name ++ '(' :: rest ∧
    new = blanks ++ "public ".toList ++ cls.name ++ '(' :: rest

/-- A line that ends the constructors of the class: its closing brace, or a public member that is none
of its constructors. -/
def IsEnd (cls : ResponseClass) (line : Line) : Prop :=
  line = cls.indent ++ ['\x7d'] ∨
    ∃ blanks n member, Blank blanks ∧
      line = blanks ++ (List.replicate (n + 1) "public ".toList).flatten ++ member ∧
      ¬"public ".toList <+: member ∧ ¬cls.name ++ ['('] <+: member

/-- What becomes of a line among the constructors of the class. -/
def Opens (cls : ResponseClass) (line new : Line) : Prop :=
  cls.Widens line new ∨ (¬∃ widened, cls.Widens line widened) ∧ new = line

theorem ofHeader?_eq_some_iff : ofHeader? line = some cls ↔ cls.IsHeader line := by
  constructor
  · intro h
    obtain ⟨⟨indent, behind⟩, hindent, hbehind⟩ := Option.bind_eq_some_iff.1 h
    obtain ⟨after, hafter, hnamed⟩ := Option.bind_eq_some_iff.1 hbehind
    obtain ⟨⟨name, ending⟩, hname, hended⟩ := Option.bind_eq_some_iff.1 hnamed
    obtain ⟨hindent_ne, hspaces, rfl, -⟩ := takeRun?_eq_some_iff.1 hindent
    obtain rfl := after?_eq_some_iff.1 hafter
    obtain ⟨hname_ne, hword, rfl, -⟩ := takeRun?_eq_some_iff.1 hname
    change (if ending = _ then some _ else none) = some cls at hended
    split at hended
    · rename_i hending
      obtain rfl := Option.some.inj hended
      refine ⟨hindent_ne, fun c hc => by simpa using hspaces c hc, hname_ne, hword, ?_⟩
      simp only [hending, List.append_assoc]
    · contradiction
  · rintro ⟨hindent_ne, hspaces, hname_ne, hword, rfl⟩
    have hindent : takeRun? (· == ' ') (cls.indent ++ ("class ".toList ++ (cls.name ++
        " extends ResponseDelegate \x7b".toList))) = some (cls.indent, "class ".toList ++
          (cls.name ++ " extends ResponseDelegate \x7b".toList)) := by
      refine takeRun?_eq_some_iff.2 ⟨hindent_ne, fun c hc => by simpa using hspaces c hc, rfl, ?_⟩
      intro c hc
      obtain rfl := Option.some.inj hc
      decide
    have hname : takeRun? isWordChar (cls.name ++ " extends ResponseDelegate \x7b".toList) =
        some (cls.name, " extends ResponseDelegate \x7b".toList) := by
      refine takeRun?_eq_some_iff.2 ⟨hname_ne, hword, rfl, ?_⟩
      intro c hc
      obtain rfl := Option.some.inj hc
      decide
    rw [List.append_assoc, List.append_assoc]
    exact Option.bind_eq_some_iff.2 ⟨_, hindent, Option.bind_eq_some_iff.2 ⟨_, after?_append _ _,
      Option.bind_eq_some_iff.2 ⟨_, hname, if_pos rfl⟩⟩⟩

/-! ### Hidden constructors -/

theorem afterHidingModifier?_eq_some_iff :
    afterHidingModifier? member = some rest ↔ ∃ modifier ∈ hidingModifiers, member = modifier ++ rest := by
  simp only [afterHidingModifier?, hidingModifiers, List.findSome?_cons, List.findSome?_nil,
    List.mem_pair]
  constructor
  · intro h
    split at h
    · rename_i found hfound
      obtain rfl := Option.some.inj h
      exact ⟨_, .inl rfl, after?_eq_some_iff.1 hfound⟩
    · split at h
      · rename_i found hfound
        obtain rfl := Option.some.inj h
        exact ⟨_, .inr rfl, after?_eq_some_iff.1 hfound⟩
      · contradiction
  · rintro ⟨modifier, rfl | rfl, rfl⟩
    · rw [after?_append]
    · -- The third letters of the two modifiers differ.
      have hnone : after? "private ".toList ("protected ".toList ++ rest) = none := rfl
      rw [hnone, after?_append]

/-- A hiding modifier begins with a mark. -/
theorem head?_of_mem_hidingModifiers {modifier : List Char} (h : modifier ∈ hidingModifiers) :
    ∃ word, modifier = 'p' :: 'r' :: word := by
  rcases List.mem_pair.1 h with rfl | rfl
  · exact ⟨_, rfl⟩
  · exact ⟨_, rfl⟩

theorem widenConstructor?_eq_some_iff : cls.widenConstructor? line = some new ↔ cls.Widens line new := by
  have hbegins : ∀ member, cls.isConstructor member = true ↔ ∃ rest, member = cls.name ++ '(' :: rest := by
    intro member
    rw [isConstructor, List.isPrefixOf_iff_prefix]
    exact ⟨fun ⟨rest, h⟩ => ⟨rest, by simpa using h.symm⟩, fun ⟨rest, h⟩ => ⟨rest, by simpa using h.symm⟩⟩
  constructor
  · intro h
    obtain ⟨member, hmember, hconstructor⟩ := Option.bind_eq_some_iff.1 h
    split at hconstructor
    · rename_i hname
      obtain ⟨rest, rfl⟩ := (hbegins member).1 hname
      rw [widen?, hmember, Option.map_some] at hconstructor
      obtain rfl := Option.some.inj hconstructor
      obtain ⟨modifier, hmodifier, htrim⟩ := afterHidingModifier?_eq_some_iff.1 hmember
      refine ⟨line.takeWhile isBlank, modifier, rest, fun c => List.mem_takeWhile_imp, hmodifier, ?_, ?_⟩
      · rw [List.append_assoc, List.append_assoc, ← htrim]
        exact List.takeWhile_append_dropWhile.symm
      · rw [List.append_assoc _ cls.name]
    · contradiction
  · rintro ⟨blanks, modifier, rest, hblanks, hmodifier, rfl, rfl⟩
    obtain ⟨word, hword⟩ := head?_of_mem_hidingModifiers hmodifier
    have htrim : trimStart (blanks ++ modifier ++ cls.name ++ '(' :: rest) =
        modifier ++ (cls.name ++ '(' :: rest) := by
      rw [List.append_assoc, List.append_assoc, hword]
      exact trimStart_append hblanks (by decide)
    have htake : (blanks ++ modifier ++ cls.name ++ '(' :: rest).takeWhile isBlank = blanks := by
      rw [List.append_assoc, List.append_assoc, hword, List.takeWhile_append_of_pos hblanks]
      simp [show isBlank 'p' = false by decide]
    have hmember : afterHidingModifier? (trimStart (blanks ++ modifier ++ cls.name ++ '(' :: rest)) =
        some (cls.name ++ '(' :: rest) :=
      afterHidingModifier?_eq_some_iff.2 ⟨modifier, hmodifier, htrim⟩
    refine Option.bind_eq_some_iff.2 ⟨_, hmember, ?_⟩
    rw [if_pos ((hbegins _).2 ⟨rest, rfl⟩), widen?, hmember, htake, Option.map_some,
      List.append_assoc _ cls.name]

/-! ### The end of the constructors -/

theorem dropPublic_append (n : Nat) (h : ¬"public ".toList <+: member) :
    dropPublic ((List.replicate n "public ".toList).flatten ++ member) = member := by
  induction n with
  | zero =>
    have hnone : after? "public ".toList member = none := by
      rw [after?, if_neg]
      rwa [List.isPrefixOf_iff_prefix]
    unfold dropPublic
    split
    · rename_i hsome
      rw [List.replicate_zero, List.flatten_nil, List.nil_append, hnone] at hsome
      contradiction
    · rfl
  | succ n ih =>
    rw [List.replicate_succ, List.flatten_cons, List.append_assoc]
    unfold dropPublic
    split
    · rename_i rest hsome
      rw [after?_append] at hsome
      obtain rfl := Option.some.inj hsome
      exact ih
    · rename_i hnone
      rw [after?_append] at hnone
      contradiction

theorem exists_replicate_dropPublic (member : List Char) :
    ∃ n, member = (List.replicate n "public ".toList).flatten ++ dropPublic member ∧
      ¬"public ".toList <+: dropPublic member := by
  fun_induction dropPublic member with
  | case1 member rest hrest _ ih =>
    obtain ⟨n, hn, hnot⟩ := ih
    refine ⟨n + 1, ?_, hnot⟩
    rw [List.replicate_succ, List.flatten_cons, List.append_assoc, ← hn]
    exact after?_eq_some_iff.1 hrest
  | case2 member hnone =>
    refine ⟨0, rfl, fun ⟨rest, hrest⟩ => ?_⟩
    rw [← hrest, after?_append] at hnone
    contradiction

theorem endsConstructors_iff : cls.endsConstructors line = true ↔ cls.IsEnd line := by
  rw [endsConstructors, Bool.or_eq_true, decide_eq_true_eq, Bool.and_eq_true, Bool.not_eq_true',
    ← Bool.not_eq_true, startsWith_iff, isConstructor, List.isPrefixOf_iff_prefix, IsEnd]
  refine or_congr_right ⟨?_, ?_⟩
  · rintro ⟨hpublic, hother⟩
    obtain ⟨blanks, hblanks, hline⟩ := exists_blank_trimStart line
    obtain ⟨n, hmember, hnot⟩ := exists_replicate_dropPublic (trimStart line)
    cases n with
    | zero =>
      rw [List.replicate_zero, List.flatten_nil, List.nil_append] at hmember
      rw [hmember] at hpublic
      exact absurd hpublic hnot
    | succ n =>
      refine ⟨blanks, n, dropPublic (trimStart line), hblanks, ?_, hnot, hother⟩
      rw [List.append_assoc, ← hmember]
      exact hline
  · rintro ⟨blanks, n, member, hblanks, rfl, hnot, hother⟩
    have htrim : trimStart (blanks ++ (List.replicate (n + 1) "public ".toList).flatten ++ member) =
        (List.replicate (n + 1) "public ".toList).flatten ++ member := by
      rw [List.append_assoc]
      exact trimStart_append hblanks (show isBlank 'p' = false by decide)
    rw [htrim, dropPublic_append _ hnot]
    refine ⟨?_, hother⟩
    rw [List.replicate_succ, List.flatten_cons, List.append_assoc]
    exact List.prefix_append _ _

/-- A hidden constructor does not end the constructors. -/
theorem IsHeader.not_isEnd_of_widens (hheader : cls.IsHeader header) (h : cls.Widens line new) :
    ¬cls.IsEnd line := by
  obtain ⟨blanks, modifier, rest, hblanks, hmodifier, hline, -⟩ := h
  obtain ⟨word, rfl⟩ := head?_of_mem_hidingModifiers hmodifier
  have hhidden : trimStart line = 'p' :: 'r' :: (word ++ cls.name ++ '(' :: rest) := by
    rw [hline, List.append_assoc, List.append_assoc, List.append_assoc]
    exact trimStart_append hblanks (show isBlank 'p' = false by decide)
  rintro (hbrace | ⟨blanks', n, member, hblanks', hpublic, -⟩)
  · have hindent : Blank cls.indent := fun c hc => by rw [hheader.indent c hc]; decide
    rw [hbrace, trimStart_append hindent (show isBlank '\x7d' = false by decide)] at hhidden
    exact absurd (List.cons.inj hhidden).1 (by decide)
  · have htrim : trimStart line =
        (List.replicate (n + 1) "public ".toList).flatten ++ member := by
      rw [hpublic, List.append_assoc]
      exact trimStart_append hblanks' (show isBlank 'p' = false by decide)
    rw [hhidden] at htrim
    exact absurd (List.cons.inj (List.cons.inj htrim).2).1 (by decide)

theorem exists_forall₂_opens (cls : ResponseClass) (body : List Line) :
    ∃ body', List.Forall₂ cls.Opens body body' := by
  induction body with
  | nil => exact ⟨[], .nil⟩
  | cons line rest ih =>
    obtain ⟨rest', hrest⟩ := ih
    by_cases h : ∃ widened, cls.Widens line widened
    · obtain ⟨widened, hwidened⟩ := h
      exact ⟨widened :: rest', .cons (.inl hwidened) hrest⟩
    · exact ⟨line :: rest', .cons (.inr ⟨h, rfl⟩) hrest⟩

end ResponseClass

open ResponseClass

/-! ### Copy constructors that are there -/

/-- The copy constructor of a class stands in lines before any header. -/
def CopyAhead (cls : ResponseClass) (ls : List Line) : Prop :=
  ∃ between after, ls = between ++ cls.copyHeader :: after ∧
    ∀ line ∈ between, ∀ other : ResponseClass, ¬other.IsHeader line

/-- The copy constructor of a class of some name stands below its header and above the next one. -/
def HasCopy (ls : List Line) (name : List Char) : Prop :=
  ∃ cls header before rest, ls = before ++ header :: rest ∧ cls.IsHeader header ∧ cls.name = name ∧
    CopyAhead cls rest

theorem copyAhead_cons :
    CopyAhead cls (line :: ls) ↔
      line = cls.copyHeader ∨ (∀ other : ResponseClass, ¬other.IsHeader line) ∧ CopyAhead cls ls := by
  constructor
  · rintro ⟨between, after, heq, hbetween⟩
    cases between with
    | nil => exact .inl (List.cons.inj heq).1
    | cons first between =>
      obtain ⟨rfl, rfl⟩ := List.cons.inj heq
      obtain ⟨hfirst, hbetween⟩ := List.forall_mem_cons.1 hbetween
      exact .inr ⟨hfirst, between, after, rfl, hbetween⟩
  · rintro (rfl | ⟨hline, between, after, rfl, hbetween⟩)
    · exact ⟨[], ls, rfl, by simp⟩
    · exact ⟨line :: between, after, rfl, List.forall_mem_cons.2 ⟨hline, hbetween⟩⟩

theorem hasCopy_cons :
    HasCopy (line :: ls) name ↔
      (∃ cls : ResponseClass, cls.IsHeader line ∧ cls.name = name ∧ CopyAhead cls ls) ∨
        HasCopy ls name := by
  constructor
  · rintro ⟨cls, header, before, rest, heq, hheader, hname, hcopy⟩
    cases before with
    | nil =>
      obtain ⟨rfl, rfl⟩ := List.cons.inj heq
      exact .inl ⟨cls, hheader, hname, hcopy⟩
    | cons first before =>
      obtain ⟨rfl, rfl⟩ := List.cons.inj heq
      exact .inr ⟨cls, header, before, rest, rfl, hheader, hname, hcopy⟩
  · rintro (⟨cls, hheader, hname, hcopy⟩ | ⟨cls, header, before, rest, rfl, hheader, hname, hcopy⟩)
    · exact ⟨cls, line, [], ls, rfl, hheader, hname, hcopy⟩
    · exact ⟨cls, header, line :: before, rest, rfl, hheader, hname, hcopy⟩

/-- A line opens one class at most. -/
theorem ResponseClass.IsHeader.eq_cls {other : ResponseClass} (h : cls.IsHeader line)
    (h' : other.IsHeader line) : other = cls :=
  Option.some.inj ((ofHeader?_eq_some_iff.2 h').symm.trans (ofHeader?_eq_some_iff.2 h))

/-- A copy constructor does not open a class. -/
theorem ResponseClass.IsHeader.not_isHeader_copyHeader {other : ResponseClass}
    (h : cls.IsHeader header) : ¬other.IsHeader cls.copyHeader := by
  intro hother
  have hspaces : ∀ c ∈ cls.indent ++ [' ', ' '], c = ' ' := by
    intro c hc
    rcases List.mem_append.1 hc with hc | hc
    · exact h.indent c hc
    · simpa using hc
  have hcopy : trimStart cls.copyHeader =
      "public ".toList ++ cls.name ++ "(ResponseDelegate response) \x7b".toList := by
    have heq : cls.copyHeader = (cls.indent ++ [' ', ' ']) ++
        ("public ".toList ++ cls.name ++ "(ResponseDelegate response) \x7b".toList) := by
      rw [copyHeader, List.append_assoc, List.append_assoc, List.append_assoc, List.append_assoc]
      rfl
    rw [heq]
    exact trimStart_append (fun c hc => by rw [hspaces c hc]; decide) (by decide)
  rw [hother.eq, List.append_assoc, List.append_assoc,
    show "class ".toList = 'c' :: "lass ".toList from rfl, List.cons_append,
    trimStart_append (fun c hc => by rw [hother.indent c hc]; decide) (by decide)] at hcopy
  exact absurd (List.cons.inj hcopy).1 (by decide)

/-- The classes that are found to have their copy constructor, behind the header of `current`. -/
theorem mem_namesWithCopy_iff {current : Option ResponseClass}
    (hcurrent : ∀ cls ∈ current, ∃ header, cls.IsHeader header) :
    name ∈ namesWithCopy current ls ↔
      (∃ cls ∈ current, cls.name = name ∧ CopyAhead cls ls) ∨ HasCopy ls name := by
  induction ls generalizing current with
  | nil => simp [namesWithCopy, CopyAhead, HasCopy]
  | cons line rest ih =>
    unfold namesWithCopy
    rw [hasCopy_cons]
    cases hline : ofHeader? line with
    | some cls =>
      have hheader := ofHeader?_eq_some_iff.1 hline
      -- No copy constructor is ahead of a header, and the lines behind it are those of its class.
      have hnone : ¬∃ c ∈ current, c.name = name ∧ CopyAhead c (line :: rest) := by
        rintro ⟨c, hc, -, hcopy⟩
        rcases copyAhead_cons.1 hcopy with rfl | ⟨hnot, -⟩
        · obtain ⟨_, hc⟩ := hcurrent c hc
          exact hc.not_isHeader_copyHeader hheader
        · exact hnot cls hheader
      simp only
      rw [ih (by rintro _ ⟨⟩; exact ⟨line, hheader⟩), or_iff_right hnone]
      refine or_congr_left ⟨?_, ?_⟩
      · rintro ⟨_, ⟨⟩, hname, hcopy⟩
        exact ⟨cls, hheader, hname, hcopy⟩
      · rintro ⟨c, hc, hname, hcopy⟩
        obtain rfl := hheader.eq_cls hc
        exact ⟨c, rfl, hname, hcopy⟩
    | none =>
      have hplain : ∀ other : ResponseClass, ¬other.IsHeader line := by
        intro other hother
        rw [ofHeader?_eq_some_iff.2 hother] at hline
        contradiction
      have hopen : ¬∃ cls : ResponseClass, cls.IsHeader line ∧ cls.name = name ∧ CopyAhead cls rest :=
        fun ⟨cls, hcls, _⟩ => hplain cls hcls
      rw [or_iff_right hopen]
      cases current with
      | none => simpa using ih hcurrent
      | some cls =>
        have hrest := ih hcurrent
        simp only [Option.mem_def, Option.some.injEq, exists_eq_left'] at hrest ⊢
        rw [copyAhead_cons, and_iff_right hplain]
        split
        · rename_i hcopy
          rw [List.mem_cons, hrest]
          constructor
          · rintro (rfl | ⟨hname, -⟩ | h)
            · exact .inl ⟨rfl, .inl hcopy⟩
            · exact .inl ⟨hname, .inl hcopy⟩
            · exact .inr h
          · rintro (⟨rfl, -⟩ | h)
            · exact .inl rfl
            · exact .inr (.inr h)
        · rename_i hcopy
          rw [hrest, or_iff_right hcopy]

/-! ### Reading side by side -/

/-- A source and what becomes of it. `copied` are the names of the classes that need no copy
constructor. -/
inductive Opened (copied : List Char → Prop) : List Line → List Line → Prop
  /-- Nothing is left. -/
  | done : Opened copied [] []
  /-- Outside of a class a line that opens none stays. -/
  | outside {line : Line} {ls out : List Line}
      (plain : ∀ cls : ResponseClass, ¬cls.IsHeader line) (rest : Opened copied ls out) :
      Opened copied (line :: ls) (line :: out)
  /-- A class whose constructors are ended. Its header and the line that ends them stay, and before
  that line there is the copy constructor. A header among its constructors is a line like the others. -/
  | ended {cls : ResponseClass} {header last : Line} {body body' copy ls out : List Line}
      (opens : cls.IsHeader header) (inside : ∀ line ∈ body, ¬cls.IsEnd line)
      (opened : List.Forall₂ cls.Opens body body') (ends : cls.IsEnd last)
      (copies : copied cls.name ∧ copy = [] ∨ ¬copied cls.name ∧ copy = cls.copyConstructor)
      (rest : Opened copied ls out) :
      Opened copied (header :: (body ++ last :: ls)) (header :: (body' ++ (copy ++ last :: out)))
  /-- A class whose constructors go on up to the end of the source. -/
  | unended {cls : ResponseClass} {header : Line} {body body' : List Line}
      (opens : cls.IsHeader header) (inside : ∀ line ∈ body, ¬cls.IsEnd line)
      (opened : List.Forall₂ cls.Opens body body') :
      Opened copied (header :: body) (header :: body')

/-- The scan over the lines among the constructors of a class. -/
theorem openResponses_append (hinside : ∀ line ∈ body, ¬cls.IsEnd line)
    (hopened : List.Forall₂ cls.Opens body body') (rest : List Line) :
    openResponses names (some cls) (body ++ rest) = body' ++ openResponses names (some cls) rest := by
  induction hopened with
  | nil => rfl
  | @cons line new body body' hline _ ih =>
    obtain ⟨hnot, hrest⟩ := List.forall_mem_cons.1 hinside
    rw [List.cons_append, openResponses, ih hrest]
    rcases hline with hwidens | ⟨hplain, hnew⟩
    · simp only [widenConstructor?_eq_some_iff.2 hwidens, List.cons_append]
    · have hnone : cls.widenConstructor? line = none := by
        rw [Option.eq_none_iff_forall_ne_some]
        exact fun widened h => hplain ⟨widened, widenConstructor?_eq_some_iff.1 h⟩
      simp only [hnone, hnew, List.cons_append]
      rw [if_neg (mt endsConstructors_iff.1 hnot)]

/-- The scan at the line that ends the constructors of a class. -/
theorem openResponses_cons_of_isEnd (hopens : cls.IsHeader header) (hends : cls.IsEnd line)
    (rest : List Line) :
    openResponses names (some cls) (line :: rest) =
      (if names.contains cls.name then [] else cls.copyConstructor) ++
        line :: openResponses names none rest := by
  have hnone : cls.widenConstructor? line = none := by
    rw [Option.eq_none_iff_forall_ne_some]
    exact fun widened h => hopens.not_isEnd_of_widens (widenConstructor?_eq_some_iff.1 h) hends
  rw [openResponses]
  simp only [hnone]
  rw [if_pos (endsConstructors_iff.2 hends)]

theorem openResponses_cons_of_isHeader (hopens : cls.IsHeader header) (rest : List Line) :
    openResponses names none (header :: rest) = header :: openResponses names (some cls) rest := by
  rw [openResponses, ofHeader?_eq_some_iff.2 hopens]

theorem openResponses_cons_of_plain (hplain : ∀ cls : ResponseClass, ¬cls.IsHeader line)
    (rest : List Line) : openResponses names none (line :: rest) = line :: openResponses names none rest := by
  have hnone : ofHeader? line = none := by
    rw [Option.eq_none_iff_forall_ne_some]
    exact fun cls h => hplain cls (ofHeader?_eq_some_iff.1 h)
  rw [openResponses, hnone]

theorem eq_openResponses (hnames : ∀ name, name ∈ names ↔ copied name) (h : Opened copied ls out) :
    out = openResponses names none ls := by
  induction h with
  | done => rfl
  | outside plain _ ih => rw [openResponses_cons_of_plain plain, ← ih]
  | ended opens inside opened ends copies _ ih =>
    rw [openResponses_cons_of_isHeader opens, openResponses_append inside opened,
      openResponses_cons_of_isEnd opens ends, ← ih]
    rcases copies with ⟨hcopied, rfl⟩ | ⟨hcopied, rfl⟩
    · rw [if_pos (List.contains_iff_mem.2 ((hnames _).2 hcopied))]
    · rw [if_neg (mt List.contains_iff_mem.1 (mt (hnames _).1 hcopied))]
  | unended opens inside opened =>
    have hall : openResponses names (some _) (_ ++ []) = _ ++ openResponses names (some _) [] :=
      openResponses_append inside opened []
    rw [List.append_nil, openResponses, List.append_nil] at hall
    rw [openResponses_cons_of_isHeader opens, hall]

theorem opened_openResponses (hnames : ∀ name, name ∈ names ↔ copied name) (ls : List Line) :
    Opened copied ls (openResponses names none ls) := by
  induction hlength : ls.length using Nat.strongRecOn generalizing ls with
  | ind n ih =>
    cases ls with
    | nil => exact .done
    | cons header rest =>
      by_cases hopens : ∃ cls : ResponseClass, cls.IsHeader header
      · obtain ⟨cls, hopens⟩ := hopens
        by_cases hany : rest.any cls.endsConstructors = true
        · obtain ⟨body, last, ls, hsplit⟩ := exists_splitsFirst hany
          have hinside : ∀ line ∈ body, ¬cls.IsEnd line := fun line hline hend =>
            Bool.eq_false_iff.1 (hsplit.none_before line hline) (endsConstructors_iff.2 hend)
          have hends : cls.IsEnd last := endsConstructors_iff.1 hsplit.here
          obtain ⟨body', hopened⟩ := exists_forall₂_opens cls body
          have hrest : Opened copied ls (openResponses names none ls) := by
            refine ih ls.length ?_ ls rfl
            rw [← hlength, hsplit.eq, List.length_cons, List.length_append, List.length_cons]
            omega
          rw [openResponses_cons_of_isHeader hopens, hsplit.eq, openResponses_append hinside hopened,
            openResponses_cons_of_isEnd hopens hends]
          refine .ended hopens hinside hopened hends ?_ hrest
          by_cases hcopied : copied cls.name
          · exact .inl ⟨hcopied, if_pos (List.contains_iff_mem.2 ((hnames _).2 hcopied))⟩
          · exact .inr ⟨hcopied, if_neg (mt List.contains_iff_mem.1 (mt (hnames _).1 hcopied))⟩
        · have hinside : ∀ line ∈ rest, ¬cls.IsEnd line := fun line hline hend =>
            hany (List.any_eq_true.2 ⟨line, hline, endsConstructors_iff.2 hend⟩)
          obtain ⟨rest', hopened⟩ := exists_forall₂_opens cls rest
          have hall : openResponses names (some cls) (rest ++ []) =
              rest' ++ openResponses names (some cls) [] :=
            openResponses_append hinside hopened []
          rw [List.append_nil, openResponses, List.append_nil] at hall
          rw [openResponses_cons_of_isHeader hopens, hall]
          exact .unended hopens hinside hopened
      · have hplain : ∀ cls : ResponseClass, ¬cls.IsHeader header := not_exists.1 hopens
        rw [openResponses_cons_of_plain hplain]
        refine .outside hplain (ih rest.length ?_ rest rfl)
        rw [← hlength, List.length_cons]
        exact Nat.lt_succ_self _

end RamlBuild
