import RamlBuild.Proofs.Sources.EnumValue
import RamlBuild.Proofs.Sources.Retyped

/-!
# Landmarks in a source

Most of what patches find out about a source they read off a few of its lines: those that open a
declaration, declare a discriminator, hide the value of an enum or list properties. These lines are
told by texts in which no types stand, so boxing and the replacement of dates leave them.

## Main definitions

* `TypingMarks`, `EnumMarks`, `OrderMarks` — what a line is for the discriminators, for the value of
  an enum and for the order of properties
* `knowsBuiltin` — implementations whose discriminator has a builtin type
* `OrderCloses` — sources whose first list of properties is closed before any annotation

## Main results

* `endures_typingMarks?`, `endures_enumMarks?`, `endures_orderMarks?` — all of them endure
* `declaresInterface_congr`, `hasDiscriminatorLiteral_congr`, `knowsBuiltin_congr`, `hidesValue_congr`,
  `orderCloses_congr` — what is told by the marks
* `filterMap_openEnum` — opening the value of an enum leaves the other marks
-/

namespace RamlBuild

open Text

variable {line line' other : Line} {text : List Char} {ls ls' : List Line} {source : String}

/-! ### Discriminators -/

/-- A field whose type, its first word, is builtin. -/
def tellsBuiltin (line : Line) : Bool :=
  declaresField line && builtinTypes.contains (String.ofList (fieldType line))

/-- What a line is for the discriminators. -/
structure TypingMarks where
  /-- It opens a public interface. -/
  opensInterface : Bool
  /-- It declares a literal discriminator. -/
  literal : Bool
  /-- It opens a public class. -/
  opensClass : Bool
  /-- It declares the field of a discriminator. -/
  field : Bool
  /-- The field has a builtin type. -/
  builtin : Bool
  deriving DecidableEq, Inhabited

/-- The marks of a line for the discriminators, if it has any. -/
def typingMarks? (line : Line) : Option TypingMarks :=
  unlessNone ⟨opensInterface line, startsWith discriminatorLiteral line,
    startsWith "public class" line, declaresField line, tellsBuiltin line⟩

theorem any_typingMarks? {q : TypingMarks → Bool} (hq : q default = false) (line : Line) :
    (typingMarks? line).any q = q ⟨opensInterface line, startsWith discriminatorLiteral line,
      startsWith "public class" line, declaresField line, tellsBuiltin line⟩ :=
  any_unlessNone hq

/-- An implementation whose discriminator field has a builtin type. -/
def knowsBuiltin (source : String) : Bool :=
  ((dropThrough (startsWith "public class") (lines source)).find? declaresField).any tellsBuiltin

theorem declaresInterface_congr {source' : String}
    (h : (lines source').filterMap typingMarks? = (lines source).filterMap typingMarks?) :
    declaresInterface source' = declaresInterface source := by
  have hopens : ∀ line, opensInterface line = (typingMarks? line).any TypingMarks.opensInterface :=
    fun line => (any_typingMarks? (q := TypingMarks.opensInterface) rfl line).symm
  rw [declaresInterface, declaresInterface, ← any_filterMap hopens, ← any_filterMap hopens, h]

theorem hasDiscriminatorLiteral_congr {source' : String}
    (h : (lines source').filterMap typingMarks? = (lines source).filterMap typingMarks?) :
    hasDiscriminatorLiteral source' = hasDiscriminatorLiteral source := by
  have hopens : ∀ line, opensInterface line = (typingMarks? line).any TypingMarks.opensInterface :=
    fun line => (any_typingMarks? (q := TypingMarks.opensInterface) rfl line).symm
  have hliteral : ∀ line, startsWith discriminatorLiteral line =
      (typingMarks? line).any TypingMarks.literal :=
    fun line => (any_typingMarks? (q := TypingMarks.literal) rfl line).symm
  rw [hasDiscriminatorLiteral, hasDiscriminatorLiteral, snd_splitAfter, snd_splitAfter]
  exact any_dropThrough_congr hopens hliteral h

theorem knowsBuiltin_congr {source' : String}
    (h : (lines source').filterMap typingMarks? = (lines source).filterMap typingMarks?) :
    knowsBuiltin source' = knowsBuiltin source := by
  have hopens : ∀ line, startsWith "public class" line =
      (typingMarks? line).any TypingMarks.opensClass :=
    fun line => (any_typingMarks? (q := TypingMarks.opensClass) rfl line).symm
  have hfield : ∀ line, declaresField line = (typingMarks? line).any TypingMarks.field :=
    fun line => (any_typingMarks? (q := TypingMarks.field) rfl line).symm
  have hbuiltin : ∀ line, tellsBuiltin line = (typingMarks? line).any TypingMarks.builtin :=
    fun line => (any_typingMarks? (q := TypingMarks.builtin) rfl line).symm
  exact any_find?_dropThrough_congr hopens hfield hbuiltin h

/-- A discriminator of a builtin type is told, and its type is no enum. -/
theorem knowsBuiltin_iff :
    knowsBuiltin source = true ↔ ∃ type, discriminatorType? source = some type ∧
      isCustomType (String.ofList type) = false := by
  rw [knowsBuiltin, discriminatorType?_eq]
  cases hfind : (dropThrough (startsWith "public class") (lines source)).find? declaresField with
  | none => simp
  | some line =>
    have hfield : declaresField line = true := List.find?_some hfind
    have hcustom : isCustomType (String.ofList (fieldType line)) = false ↔
        String.ofList (fieldType line) ∈ builtinTypes := by
      rw [← Bool.not_eq_true, isCustomType_iff, not_not]
    simp only [Option.any_some, tellsBuiltin, hfield, Bool.true_and, Option.bind_some,
      List.contains_iff_mem]
    by_cases hnil : fieldType line = []
    · rw [hnil]
      simp [builtinTypes]
    · simp [hnil, hcustom]

/-- How the lines begin that have a mark for the discriminators. -/
def typingStarts : List String :=
  ["public interface", discriminatorLiteral, "public class", discriminatorField]

/-- A line that begins with something else has no mark. -/
theorem typingMarks?_eq_none (hother : other <+: trimStart line)
    (hclash : typingStarts.all (fun start => clashes (trimStart start.toList) other) = true) :
    typingMarks? line = none := by
  have hstart : ∀ start ∈ typingStarts, startsWith start line = false := fun start hmem =>
    startsWith_eq_false (List.all_eq_true.1 hclash start hmem) hother
  have hfield : declaresField line = false := by
    rw [declaresField, hstart discriminatorField (by simp [typingStarts])]
    rfl
  rw [typingMarks?, opensInterface, hstart "public interface" (by simp [typingStarts]),
    hstart discriminatorLiteral (by simp [typingStarts]),
    hstart "public class" (by simp [typingStarts]), tellsBuiltin, hfield]
  rfl

theorem untyped_of_mem_typingStarts {start : String} (h : start ∈ typingStarts) :
    Untyped start.toList := by
  have hall : ∀ start ∈ typingStarts, Untyped start.toList := by
    unfold Untyped KeepsStart
    decide
  exact hall start h

theorem Retyped.declaresField_eq (h : Retyped line line') :
    declaresField line' = declaresField line := by
  rw [declaresField, declaresField,
    h.startsWith_eq (untyped_of_mem_typingStarts (by simp [typingStarts]))]
  congr 1
  rw [Bool.eq_iff_iff, endsWith_iff, endsWith_iff,
    show discriminatorFieldEnd.toList = "_DISCRIMINATOR_TYPE_NAME".toList ++ [';'] by decide]
  refine h.suffix_concat_iff (by decide) (by decide) (by decide) ?_
  decide

/-- A field of a builtin type is one with other types too: what a builtin type is exchanged for is
builtin. -/
theorem Retyped.contains_builtin (h : Retyped line line')
    (hbuiltin : builtinTypes.contains (String.ofList line) = true) :
    builtinTypes.contains (String.ofList line') = true := by
  have hword : ∀ type ∈ builtinTypes, IsWord type.toList := by decide
  have hpairs : ∀ entry ∈ boxedTypes ++ datePairs,
      builtinTypes.contains (String.ofList entry.1) = builtinTypes.contains (String.ofList entry.2) := by
    decide
  have hline : IsWord line := by
    simpa using hword _ (List.contains_iff_mem.1 hbuiltin)
  have hswaps : ∀ {pairs}, (∀ entry ∈ pairs, entry ∈ boxedTypes ++ datePairs) →
      SwapsRun pairs line line' → builtinTypes.contains (String.ofList line') = true := by
    intro pairs hsub hswaps
    rcases hswaps with rfl | hmem | hmem
    · exact hbuiltin
    · exact (hpairs _ (hsub _ hmem)).symm.trans hbuiltin
    · exact (hpairs _ (hsub _ hmem)).trans hbuiltin
  rcases h with h | h
  · exact hswaps (fun _ => List.mem_append_left _) (h.of_run hline).2
  · exact hswaps (fun _ => List.mem_append_right _)
      (h.of_run fun c hc => isNameChar_of_isWordChar (hline c hc)).2

theorem Retyped.tellsBuiltin_eq (h : Retyped line line') : tellsBuiltin line' = tellsBuiltin line := by
  have hforth : ∀ {line line' : Line}, Retyped line line' → tellsBuiltin line = true →
      tellsBuiltin line' = true := by
    intro line line' h hbuiltin
    rw [tellsBuiltin, Bool.and_eq_true] at hbuiltin ⊢
    refine ⟨h.declaresField_eq.trans hbuiltin.1, ?_⟩
    have hstarts := hbuiltin.1
    rw [declaresField, Bool.and_eq_true, startsWith_iff] at hstarts
    obtain ⟨rest, rfl⟩ := hstarts.1
    have hsplit : discriminatorField.toList = "  private final".toList ++ [' '] := by decide
    have htype : ∀ rest, fieldType (discriminatorField.toList ++ rest) = Text.beforeFirst ' ' rest :=
      fun rest => by rw [fieldType, String.length_toList.symm, List.drop_left]
    have hline := h
    rw [hsplit, List.append_assoc, List.singleton_append] at hline
    obtain ⟨first, rest', rfl, hfirst, hrest⟩ := hline.of_append_cons (by decide) (by decide)
    have hfirst : first = "  private final".toList :=
      hfirst.eq_of_untypedText (by unfold UntypedText Keeps; decide)
    rw [hfirst, ← List.singleton_append, ← List.append_assoc, ← hsplit, htype]
    rw [htype] at hbuiltin
    exact (hrest.beforeFirst (by decide) (by decide)).contains_builtin hbuiltin.2
  exact Bool.eq_iff_iff.2 ⟨hforth h.symm, hforth h⟩

theorem endures_typingMarks? : Endures typingMarks? where
  retyped h := by
    rw [typingMarks?, typingMarks?, opensInterface, opensInterface, h.declaresField_eq,
      h.tellsBuiltin_eq, h.startsWith_eq (untyped_of_mem_typingStarts (by simp [typingStarts])),
      h.startsWith_eq (untyped_of_mem_typingStarts (by simp [typingStarts])),
      h.startsWith_eq (untyped_of_mem_typingStarts (by simp [typingStarts]))]
  pattern h := typingMarks?_eq_none h (by decide)
  imports h := typingMarks?_eq_none h (by decide)

/-! ### Values of enums -/

/-- What a line is for the value of an enum. -/
structure EnumMarks where
  /-- It opens a public enum. -/
  opens : Bool
  /-- It hides the value. -/
  hides : Bool
  deriving DecidableEq, Inhabited

/-- The marks of a line for the value of an enum, if it has any. -/
def enumMarks? (line : Line) : Option EnumMarks :=
  unlessNone ⟨opensEnum line, hidesValue line⟩

theorem Retyped.hidesValue_eq (h : Retyped line line') : hidesValue line' = hidesValue line := by
  have htext : ∀ text ∈ hidingLines, UntypedText text := by
    unfold UntypedText Keeps
    decide
  have hforth : ∀ {line line' : Line}, Retyped line line' → line ∈ hidingLines →
      line' ∈ hidingLines := by
    intro line line' h hmem
    rwa [h.eq_of_untypedText (htext line hmem)]
  rw [Bool.eq_iff_iff, hidesValue_iff, hidesValue_iff]
  exact ⟨hforth h.symm, hforth h⟩

/-- How the lines begin that have a mark for the value of an enum. -/
def enumStarts : List (List Char) :=
  "public enum".toList :: hidingLines

theorem enumMarks?_eq_none (hother : other <+: trimStart line)
    (hclash : enumStarts.all (fun start => clashes (trimStart start) other) = true) :
    enumMarks? line = none := by
  have hstart : ∀ start ∈ enumStarts, ¬start <+: line := fun start hmem =>
    not_prefix_of_trimStart (List.all_eq_true.1 hclash start hmem) hother
  have hopens : opensEnum line = false := by
    rw [opensEnum, ← Bool.not_eq_true, startsWith_iff]
    exact hstart _ List.mem_cons_self
  have hhides : hidesValue line = false := by
    rw [← Bool.not_eq_true, hidesValue_iff]
    exact fun hmem => hstart line (List.mem_cons_of_mem _ hmem) List.prefix_rfl
  rw [enumMarks?, hopens, hhides]
  rfl

theorem endures_enumMarks? : Endures enumMarks? where
  retyped h := by
    have hopens : startsWith "public enum" _ = startsWith "public enum" _ := h.startsWith_eq (by
      unfold Untyped KeepsStart
      decide)
    rw [enumMarks?, enumMarks?, opensEnum, opensEnum, hopens, h.hidesValue_eq]
  pattern h := enumMarks?_eq_none h (by decide)
  imports h := enumMarks?_eq_none h (by decide)

theorem any_enumMarks? {q : EnumMarks → Bool} (hq : q default = false) (line : Line) :
    (enumMarks? line).any q = q ⟨opensEnum line, hidesValue line⟩ :=
  any_unlessNone hq

theorem hidesValue_congr (h : ls'.filterMap enumMarks? = ls.filterMap enumMarks?) :
    HidesValue ls' ↔ HidesValue ls := by
  have hopens : ∀ line, opensEnum line = (enumMarks? line).any EnumMarks.opens :=
    fun line => (any_enumMarks? (q := EnumMarks.opens) rfl line).symm
  have hhides : ∀ line, hidesValue line = (enumMarks? line).any EnumMarks.hides :=
    fun line => (any_enumMarks? (q := EnumMarks.hides) rfl line).symm
  rw [HidesValue, HidesValue, any_dropThrough_congr hopens hhides h]

/-- Opening the value of an enum leaves marks that none of its lines has. -/
theorem filterMap_openEnum {α : Type} {m : Line → Option α} (hold : ∀ line ∈ hidingLines, m line = none)
    (hnew : ∀ line ∈ openValueField ++ ["    this.value = name;".toList], m line = none)
    (ls : List Line) : (openEnum ls).filterMap m = ls.filterMap m := by
  have hline : ∀ line, (openEnumLine line).filterMap m = [line].filterMap m := by
    intro line
    cases hhides : hidesValue line with
    | false => rw [openEnumLine_eq_self hhides]
    | true =>
      have hnone : (openEnumLine line).filterMap m = [] := by
        rw [List.filterMap_eq_nil_iff]
        intro out hout
        apply hnew
        rw [openEnumLine] at hout
        split at hout
        · exact List.mem_append_left _ hout
        · rename_i hfields
          rw [hidesValue, Bool.or_eq_true, beq_iff_eq] at hhides
          rw [if_pos (hhides.resolve_left hfields)] at hout
          exact List.mem_append_right _ hout
      rw [hnone, List.filterMap_cons_none (hold line (hidesValue_iff.1 hhides)), List.filterMap_nil]
  have hbody : ∀ rest : List Line, (rest.flatMap openEnumLine).filterMap m = rest.filterMap m := by
    intro rest
    induction rest with
    | nil => rfl
    | cons line rest ih =>
      rw [List.flatMap_cons, List.filterMap_append, hline, ih, ← List.filterMap_append]
      rfl
  induction ls with
  | nil => rfl
  | cons line rest ih =>
    have hrest : (if opensEnum line then rest.flatMap openEnumLine else openEnum rest).filterMap m =
        rest.filterMap m := by
      split
      · exact hbody rest
      · exact ih
    rw [openEnum, List.filterMap_cons, List.filterMap_cons, hrest]

/-! ### Orders of properties -/

/-- A line that opens a list of properties. -/
def opensOrder (line : Line) : Bool := startsWith "@JsonPropertyOrder" line

/-- A line that closes a list of properties. -/
def closesOrder (line : Line) : Bool := startsWith "\x7d)" line

/-- A line that annotates a property. -/
def annotatesProperty (line : Line) : Bool := startsWith "@JsonProperty(" (trim line)

/-- What a line is for the order of properties. -/
structure OrderMarks where
  /-- It opens a list. -/
  opens : Bool
  /-- It opens a list and closes it. -/
  closed : Bool
  /-- It closes a list that was opened before. -/
  closes : Bool
  /-- It annotates a property. -/
  annotates : Bool
  deriving DecidableEq, Inhabited

/-- The marks of a line for the order of properties, if it has any. -/
def orderMarks? (line : Line) : Option OrderMarks :=
  unlessNone ⟨opensOrder line, opensOrder line && has "\x7d)" line, closesOrder line,
    annotatesProperty line⟩

theorem any_orderMarks? {q : OrderMarks → Bool} (hq : q default = false) (line : Line) :
    (orderMarks? line).any q = q ⟨opensOrder line, opensOrder line && has "\x7d)" line,
      closesOrder line, annotatesProperty line⟩ :=
  any_unlessNone hq

/-- A line that annotates a property has nothing but blanks before its annotation. -/
theorem annotatesProperty_iff :
    annotatesProperty line = true ↔
      ∃ blanks rest, Blank blanks ∧ line = (blanks ++ "@JsonProperty".toList) ++ '(' :: rest := by
  have hmark : ∀ rest, "@JsonProperty(".toList ++ rest = '@' :: ("JsonProperty".toList ++ '(' :: rest) :=
    fun _ => rfl
  rw [annotatesProperty, startsWith_iff]
  constructor
  · intro hstarts
    obtain ⟨blanks, hblanks, hline⟩ := exists_blank_trimStart line
    obtain ⟨rest, hrest⟩ := hstarts.trans (prefix_trimEnd (trimStart line))
    refine ⟨blanks, rest, hblanks, ?_⟩
    rw [hline, ← hrest, List.append_assoc]
    rfl
  · rintro ⟨blanks, rest, hblanks, rfl⟩
    have hline : (blanks ++ "@JsonProperty".toList) ++ '(' :: rest =
        blanks ++ '@' :: ("JsonProperty".toList ++ '(' :: rest) := List.append_assoc _ _ _
    rw [hline, trim_append hblanks (by decide), trimEnd_append_cons (by decide), ← hmark]
    exact List.prefix_append _ _

theorem Retyped.annotatesProperty_eq (h : Retyped line line') :
    annotatesProperty line' = annotatesProperty line := by
  have hforth : ∀ {line line' : Line}, Retyped line line' → annotatesProperty line = true →
      annotatesProperty line' = true := by
    intro line line' h hline
    obtain ⟨blanks, rest, hblanks, rfl⟩ := annotatesProperty_iff.1 hline
    obtain ⟨first, rest', rfl, hfirst, -⟩ := h.of_append_cons (by decide) (by decide)
    rw [hfirst.eq_of_untypedText (untypedText_of_blank hblanks (by decide))]
    exact annotatesProperty_iff.2 ⟨blanks, rest', hblanks, rfl⟩
  exact Bool.eq_iff_iff.2 ⟨hforth h.symm, hforth h⟩

theorem Retyped.has_close_eq (h : Retyped line line') :
    has "\x7d)" line' = has "\x7d)" line := by
  rw [Bool.eq_iff_iff, has_iff, has_iff]
  -- For dates the brace may end a name, for words it stands between them.
  rcases h with h | h
  · have hstart : KeepsStart isWordChar boxedTypes [')'] := by
      unfold KeepsStart
      decide
    have hiff : [] ++ '\x7d' :: [')'] <:+: line' ↔ [] ++ '\x7d' :: [')'] <:+: line :=
      h.infix_around_iff (by decide) (by simp) hstart (by simp)
    exact hiff
  · have hstart : KeepsStart isNameChar datePairs [] := by
      unfold KeepsStart
      decide
    have hiff : ['\x7d'] ++ ')' :: [] <:+: line' ↔ ['\x7d'] ++ ')' :: [] <:+: line :=
      h.infix_around_iff (by decide) (List.all_eq_true.1 (by decide)) hstart (by decide)
    exact hiff

/-- How the lines begin that have a mark for the order of properties. -/
def orderStarts : List String :=
  ["@JsonPropertyOrder", "\x7d)", "@JsonProperty("]

theorem orderMarks?_eq_none (hother : other <+: trimStart line)
    (hclash : orderStarts.all (fun start => clashes (trimStart start.toList) other) = true) :
    orderMarks? line = none := by
  have hclashes : ∀ start ∈ orderStarts, clashes (trimStart start.toList) other = true :=
    List.all_eq_true.1 hclash
  have hstart : ∀ start ∈ orderStarts, startsWith start line = false := fun start hmem =>
    startsWith_eq_false (hclashes start hmem) hother
  have hannotates : annotatesProperty line = false := by
    rw [annotatesProperty, ← Bool.not_eq_true, startsWith_iff]
    intro hstarts
    exact not_prefix_of_clashes (hclashes "@JsonProperty(" (by simp [orderStarts])) hother
      (hstarts.trans (prefix_trimEnd (trimStart line)))
  rw [orderMarks?, opensOrder, closesOrder, hannotates, hstart _ (by simp [orderStarts]),
    hstart _ (by simp [orderStarts])]
  rfl

theorem endures_orderMarks? : Endures orderMarks? where
  retyped h := by
    have hstart : ∀ start ∈ ["@JsonPropertyOrder", "\x7d)"], Untyped start.toList := by
      unfold Untyped KeepsStart
      decide
    rw [orderMarks?, orderMarks?, opensOrder, opensOrder, closesOrder, closesOrder,
      h.startsWith_eq (hstart _ (by simp)), h.startsWith_eq (hstart _ (by simp)), h.has_close_eq,
      h.annotatesProperty_eq]
  pattern h := orderMarks?_eq_none h (by decide)
  imports h := orderMarks?_eq_none h (by decide)

/-- The first list of properties is closed, on its line or on a later one, before any annotation. -/
def OrderCloses (ls : List Line) : Prop :=
  ∀ first rest, ls.dropWhile (!opensOrder ·) = first :: rest →
    (ls.takeWhile (!opensOrder ·)).any annotatesProperty = false ∧
      (has "\x7d)" first = true ∨
        rest.any closesOrder = true ∧
          (rest.takeWhile (!closesOrder ·)).any annotatesProperty = false)

instance (ls : List Line) : Decidable (OrderCloses ls) :=
  match h : ls.dropWhile (!opensOrder ·) with
  | [] => isTrue fun first rest heq => by simp [h] at heq
  | first :: rest =>
    decidable_of_iff ((ls.takeWhile (!opensOrder ·)).any annotatesProperty = false ∧
      (has "\x7d)" first = true ∨ rest.any closesOrder = true ∧
        (rest.takeWhile (!closesOrder ·)).any annotatesProperty = false)) <| by
      rw [OrderCloses, h]
      constructor
      · rintro hcloses _ _ heq
        obtain ⟨rfl, rfl⟩ := List.cons.inj heq
        exact hcloses
      · exact fun hcloses => hcloses first rest rfl

theorem orderCloses_congr (h : ls'.filterMap orderMarks? = ls.filterMap orderMarks?) :
    OrderCloses ls' ↔ OrderCloses ls := by
  have hopens : ∀ line, opensOrder line = (orderMarks? line).any OrderMarks.opens :=
    fun line => (any_orderMarks? (q := OrderMarks.opens) rfl line).symm
  have hcloses : ∀ line, closesOrder line = (orderMarks? line).any OrderMarks.closes :=
    fun line => (any_orderMarks? (q := OrderMarks.closes) rfl line).symm
  have hannotates : ∀ line, annotatesProperty line = (orderMarks? line).any OrderMarks.annotates :=
    fun line => (any_orderMarks? (q := OrderMarks.annotates) rfl line).symm
  have hiff : ∀ ls : List Line, OrderCloses ls ↔
      ∀ mark marks, (ls.filterMap orderMarks?).dropWhile (!OrderMarks.opens ·) = mark :: marks →
        ((ls.filterMap orderMarks?).takeWhile (!OrderMarks.opens ·)).any OrderMarks.annotates =
            false ∧
          (mark.closed = true ∨
            marks.any OrderMarks.closes = true ∧
              (marks.takeWhile (!OrderMarks.closes ·)).any OrderMarks.annotates = false) := by
    intro ls
    have hclosed : ∀ {first rest}, ls.dropWhile (!opensOrder ·) = first :: rest →
        (orderMarks? first).any OrderMarks.closed = has "\x7d)" first := by
      intro first rest hdrop
      have hopen := List.head?_dropWhile_not (!opensOrder ·) ls
      rw [hdrop] at hopen
      rw [any_orderMarks? rfl]
      simpa using fun _ => by simpa using hopen
    rw [OrderCloses, ← filterMap_takeWhile hopens, any_filterMap hannotates]
    constructor
    · intro hall mark marks hmarks
      obtain ⟨first, rest, hdrop, hmark, rfl⟩ := (dropWhile_filterMap_eq_cons_iff hopens).1 hmarks
      have hfirst := hclosed hdrop
      rw [hmark, Option.any_some] at hfirst
      rw [hfirst, any_filterMap hcloses, ← filterMap_takeWhile hcloses, any_filterMap hannotates]
      exact hall first rest hdrop
    · intro hall first rest hdrop
      have hopen : opensOrder first = true := by
        have := List.head?_dropWhile_not (!opensOrder ·) ls
        rw [hdrop] at this
        simpa using this
      have hfirst := hclosed hdrop
      rw [hopens] at hopen
      cases hmark : orderMarks? first with
      | none => exact absurd hopen (by simp [hmark])
      | some mark =>
        have hmarks := hall mark _
          ((dropWhile_filterMap_eq_cons_iff hopens).2 ⟨first, rest, hdrop, hmark, rfl⟩)
        rw [hmark, Option.any_some] at hfirst
        rwa [hfirst, any_filterMap hcloses, ← filterMap_takeWhile hcloses,
          any_filterMap hannotates] at hmarks
  rw [hiff, hiff, h]

end RamlBuild
