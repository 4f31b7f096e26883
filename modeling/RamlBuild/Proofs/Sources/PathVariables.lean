import RamlBuild.Proofs.Sources.ResourcePaths
import RamlBuild.Proofs.Text.Blank

/-!
# Variables of a path

A path is made of text and of templates: a name in braces, or a name and a regular expression, which
may have braces of its own as long as they are balanced. A part in braces is read up to the next
closing brace. So the name of each template is read; but what stands behind the first closing brace
of a regular expression is read like a path of its own.

## Main definitions

* `Balanced` — texts whose braces are balanced
* `Template`, `PathPart` — the parts of a path
* `Template.strays` — the variables that are read within a regular expression

## Main results

* `bracedParts_append` — texts are read one after the other where each brace is closed
* `pathVariables_pathOf` — the variables of a path, template by template
* `mem_pathVariables_pathOf` — the variables of a path are the names, besides the strays
-/

namespace RamlBuild

open Text

variable {c : Char} {xs ys part rest : List Char} {depth : Nat}

theorem isBlank_eq_false_of_trim (h : trim (c :: rest) = c :: rest) : isBlank c = false := by
  by_contra hblank
  rw [Bool.not_eq_false] at hblank
  have hshort : (trim rest).length ≤ rest.length := by
    rw [trim, trimEnd, trimStart, List.length_reverse]
    have hstart := List.length_dropWhile_le isBlank rest
    have hend := List.length_dropWhile_le isBlank (rest.dropWhile isBlank).reverse
    rw [List.length_reverse] at hend
    exact hend.trans hstart
  have hlength := congrArg List.length h
  rw [trim, trimStart, List.dropWhile_cons_of_pos hblank, ← trimStart, ← trim,
    List.length_cons] at hlength
  omega

/-! ### Balanced braces -/

/-- Whether braces are balanced behind a number of opening ones. -/
def closesBraces (depth : Nat) : List Char → Bool
  | [] => depth == 0
  | c :: rest =>
    if c = '\x7b' then closesBraces (depth + 1) rest
    else if c = '\x7d' then depth != 0 && closesBraces (depth - 1) rest
    else closesBraces depth rest

/-- A text whose braces are balanced. -/
def Balanced (text : List Char) : Prop :=
  closesBraces 0 text = true

instance (text : List Char) : Decidable (Balanced text) :=
  inferInstanceAs (Decidable (_ = _))

/-- Behind each opening brace there is a closing one. -/
def Closes : List Char → Prop
  | [] => True
  | c :: rest => (c = '\x7b' → '\x7d' ∈ rest) ∧ Closes rest

theorem Closes.append (hxs : Closes xs) (hys : Closes ys) : Closes (xs ++ ys) := by
  induction xs with
  | nil => exact hys
  | cons c rest ih =>
    obtain ⟨hopen, hrest⟩ := hxs
    exact ⟨fun hc => List.mem_append_left ys (hopen hc), ih hrest⟩

theorem Closes.of_append (h : Closes (xs ++ ys)) : Closes ys := by
  induction xs with
  | nil => exact h
  | cons c rest ih => exact ih h.2

theorem closes_of_not_mem (h : '\x7b' ∉ xs) : Closes xs := by
  induction xs with
  | nil => trivial
  | cons c rest ih =>
    obtain ⟨hc, hrest⟩ := not_or.1 (mt List.mem_cons.2 h)
    exact ⟨fun heq => absurd heq.symm hc, ih hrest⟩

theorem mem_of_closesBraces (h : closesBraces (depth + 1) xs = true) : '\x7d' ∈ xs := by
  induction xs generalizing depth with
  | nil => simp [closesBraces] at h
  | cons c rest ih =>
    rw [closesBraces] at h
    split at h
    · exact List.mem_cons_of_mem c (ih h)
    · split at h
      · rename_i hc
        rw [hc]
        exact List.mem_cons_self
      · exact List.mem_cons_of_mem c (ih h)

theorem closes_of_closesBraces (h : closesBraces depth xs = true) : Closes xs := by
  induction xs generalizing depth with
  | nil => trivial
  | cons c rest ih =>
    rw [closesBraces] at h
    split at h
    · exact ⟨fun _ => mem_of_closesBraces h, ih h⟩
    · rename_i hopen
      refine ⟨fun hc => absurd hc hopen, ?_⟩
      split at h
      · rw [Bool.and_eq_true] at h
        exact ih h.2
      · exact ih h

theorem Balanced.closes (h : Balanced xs) : Closes xs :=
  closes_of_closesBraces h

/-! ### Parts in braces -/

theorem bracedParts_cons_of_ne (h : c ≠ '\x7b') : bracedParts (c :: rest) = bracedParts rest := by
  rw [bracedParts, if_neg h]

theorem takeWhile_notClosing (h : '\x7d' ∉ part) :
    (part ++ '\x7d' :: rest).takeWhile (· != '\x7d') = part ∧
      (part ++ '\x7d' :: rest).dropWhile (· != '\x7d') = '\x7d' :: rest := by
  have hall : ∀ c ∈ part, (c != '\x7d') = true := by
    intro c hc
    rw [bne_iff_ne]
    rintro rfl
    exact h hc
  rw [List.takeWhile_append_of_pos hall, List.dropWhile_append_of_pos hall]
  simp

/-- A part in braces that is not empty is told, and the search goes on behind it. -/
theorem bracedParts_of_part (hne : part ≠ []) (h : '\x7d' ∉ part) :
    bracedParts ('\x7b' :: (part ++ '\x7d' :: rest)) = part :: bracedParts rest := by
  obtain ⟨htake, hdrop⟩ := @takeWhile_notClosing part rest h
  have hbehind : (part ++ '\x7d' :: rest).drop (part.length + 1) = rest := by
    rw [List.append_cons]
    exact List.drop_left' (by simp)
  rw [bracedParts, if_pos rfl, htake, hdrop]
  cases part with
  | nil => contradiction
  | cons c part => simp only [hbehind]

theorem bracedParts_of_empty : bracedParts ('\x7b' :: '\x7d' :: rest) = bracedParts rest := by
  rw [bracedParts, if_pos rfl, bracedParts_cons_of_ne (by decide)]
  rfl

/-- Where each brace of a text is closed within the text, its parts do not reach into what follows. -/
theorem bracedParts_append (h : Closes xs) (ys : List Char) :
    bracedParts (xs ++ ys) = bracedParts xs ++ bracedParts ys := by
  induction hlength : xs.length using Nat.strong_induction_on generalizing xs with
  | _ length ih =>
    subst hlength
    cases xs with
    | nil => rw [List.nil_append, bracedParts, List.nil_append]
    | cons c rest =>
      by_cases hc : c = '\x7b'
      · subst hc
        -- The part ends at the first closing brace, and the search goes on behind it.
        obtain ⟨part, rest', rfl, hpart⟩ := List.eq_append_cons_of_mem (h.1 rfl)
        have hrest' : Closes rest' := (Closes.of_append h.2).2
        have hbehind := ih rest'.length (by simp; omega) hrest' rfl
        cases part with
        | nil =>
          rw [List.nil_append, List.cons_append, List.cons_append, bracedParts_of_empty, hbehind,
            bracedParts_of_empty]
        | cons d part =>
          have hsplit : '\x7b' :: (d :: part ++ '\x7d' :: rest') ++ ys =
              '\x7b' :: (d :: part ++ '\x7d' :: (rest' ++ ys)) := by simp
          rw [hsplit, bracedParts_of_part (List.cons_ne_nil d part) hpart, hbehind,
            bracedParts_of_part (List.cons_ne_nil d part) hpart, List.cons_append]
      · rw [List.cons_append, bracedParts_cons_of_ne hc, bracedParts_cons_of_ne hc]
        exact ih rest.length (by simp) h.2 rfl

theorem bracedParts_of_not_mem (h : '\x7b' ∉ xs) : bracedParts xs = [] := by
  induction xs with
  | nil => rw [bracedParts]
  | cons c rest ih =>
    obtain ⟨hc, hrest⟩ := not_or.1 (mt List.mem_cons.2 h)
    rw [bracedParts_cons_of_ne (Ne.symm hc), ih hrest]

theorem pathVariables_append (h : Closes xs) (ys : List Char) :
    pathVariables (xs ++ ys) = pathVariables xs ++ pathVariables ys := by
  rw [pathVariables, bracedParts_append h, List.map_append, List.filter_append]
  rfl

theorem pathVariables_of_not_mem (h : '\x7b' ∉ xs) : pathVariables xs = [] := by
  rw [pathVariables, bracedParts_of_not_mem h]
  rfl

/-! ### The parts of a path -/

/-- A template of a path: a name that may have blanks around it, and behind a colon a regular
expression, if it has one. -/
structure Template where
  /-- The blanks before the name. -/
  before : List Char
  /-- The name. -/
  name : List Char
  /-- The blanks behind the name. -/
  after : List Char
  /-- The regular expression. -/
  regex? : Option (List Char)
  blank_before : Blank before
  blank_after : Blank after
  name_ne : name ≠ []
  trim_name : trim name = name
  name_plain : ∀ c ∈ name, c ≠ ':' ∧ c ≠ '\x7b' ∧ c ≠ '\x7d'
  regex_balanced : ∀ regex ∈ regex?, Balanced regex

namespace Template

variable (t : Template)

/-- The name with the blanks around it. -/
def head : List Char :=
  t.before ++ t.name ++ t.after

/-- The colon with the regular expression. -/
def definition : List Char :=
  match t.regex? with
  | none => []
  | some regex => ':' :: regex

/-- The template as it is written. -/
def text : List Char :=
  '\x7b' :: (t.head ++ t.definition ++ ['\x7d'])

/-- What stands behind the first closing brace of the regular expression. -/
def behind : List Char :=
  (t.definition.dropWhile (· != '\x7d')).drop 1

/-- The variables that are read within the regular expression. -/
def strays : List (List Char) :=
  pathVariables t.behind

/-- What is neither in a name nor blank is not in the head. -/
theorem not_mem_head (hblank : isBlank c = false) (hname : c ∉ t.name) : c ∉ t.head := by
  have hnot : ∀ {blanks : List Char}, Blank blanks → c ∉ blanks := by
    intro blanks hblanks hmem
    rw [hblanks c hmem] at hblank
    contradiction
  simp [head, hnot t.blank_before, hnot t.blank_after, hname]

theorem colon_not_mem_head : ':' ∉ t.head :=
  t.not_mem_head (by decide) fun h => (t.name_plain _ h).1 rfl

theorem opening_not_mem_head : '\x7b' ∉ t.head :=
  t.not_mem_head (by decide) fun h => (t.name_plain _ h).2.1 rfl

theorem closing_not_mem_head : '\x7d' ∉ t.head :=
  t.not_mem_head (by decide) fun h => (t.name_plain _ h).2.2 rfl

theorem head_ne_nil : t.head ≠ [] := by
  simp [head, t.name_ne]

theorem trim_head : trim t.head = t.name := by
  obtain ⟨c, rest, hname⟩ := List.exists_cons_of_ne_nil t.name_ne
  have htrim := t.trim_name
  rw [hname] at htrim
  have hc := isBlank_eq_false_of_trim htrim
  rw [← List.nil_append (c :: rest), trim_append (by simp [Blank]) hc] at htrim
  rw [head, trim_append_blank t.blank_after, hname, trim_append t.blank_before hc, htrim]
  rfl

/-- The head is read up to the colon, if there is one. -/
theorem beforeFirst_head (hrest : rest = [] ∨ ∃ regex, rest = ':' :: regex) :
    trim (beforeFirst ':' (t.head ++ rest)) = t.name := by
  have hall : ∀ c ∈ t.head, (c != ':') = true := by
    intro c hc
    rw [bne_iff_ne]
    rintro rfl
    exact t.colon_not_mem_head hc
  have hbefore : beforeFirst ':' (t.head ++ rest) = t.head := by
    rw [beforeFirst, List.takeWhile_append_of_pos hall]
    rcases hrest with rfl | ⟨regex, rfl⟩ <;> simp
  rw [hbefore, t.trim_head]

theorem closes_definition : Closes t.definition := by
  unfold definition
  cases hregex : t.regex? with
  | none => trivial
  | some regex => exact ⟨by simp, (t.regex_balanced regex hregex).closes⟩

theorem closes_text : Closes t.text := by
  refine ⟨fun _ => by simp, ?_⟩
  exact ((closes_of_not_mem t.opening_not_mem_head).append t.closes_definition).append
    (closes_of_not_mem (by simp))

/-- The first part in braces of a template is its head, with the definition as far as it has no
closing brace. -/
theorem bracedParts_text :
    bracedParts t.text = (t.head ++ t.definition.takeWhile (· != '\x7d')) :: bracedParts t.behind := by
  have hsplit := List.takeWhile_append_dropWhile (p := (· != '\x7d')) (l := t.definition)
  have hfirst : '\x7d' ∉ t.head ++ t.definition.takeWhile (· != '\x7d') := by
    rw [List.mem_append, not_or]
    refine ⟨t.closing_not_mem_head, fun hmem => ?_⟩
    simpa using List.mem_takeWhile_imp hmem
  have hne : t.head ++ t.definition.takeWhile (· != '\x7d') ≠ [] := by
    simp [t.head_ne_nil]
  cases hdrop : t.definition.dropWhile (· != '\x7d') with
  | nil =>
    -- The definition has no closing brace, and the part is all of the template.
    rw [hdrop, List.append_nil] at hsplit
    have htext : t.text =
        '\x7b' :: (t.head ++ t.definition.takeWhile (· != '\x7d') ++ '\x7d' :: []) := by
      rw [hsplit]
      rfl
    rw [htext, bracedParts_of_part hne hfirst, behind, hdrop]
    rfl
  | cons d behind =>
    obtain rfl : d = '\x7d' := by
      have hhead := List.head?_dropWhile_not (· != '\x7d') t.definition
      rw [hdrop] at hhead
      simpa using hhead
    rw [hdrop] at hsplit
    have htext : t.text = '\x7b' :: (t.head ++ t.definition.takeWhile (· != '\x7d') ++
        '\x7d' :: (behind ++ ['\x7d'])) := by
      rw [text]
      conv_lhs => rw [← hsplit]
      simp
    have hcloses : Closes behind := by
      have hdefinition := t.closes_definition
      rw [← hsplit] at hdefinition
      exact hdefinition.of_append.2
    have hlast : bracedParts ['\x7d'] = [] := bracedParts_of_not_mem (by decide)
    rw [htext, bracedParts_of_part hne hfirst, bracedParts_append hcloses, hlast, List.append_nil,
      Template.behind, hdrop]
    rfl

/-- What is read of a template: its name, and the strays. -/
theorem pathVariables_text : pathVariables t.text = t.name :: t.strays := by
  have hdefinition : t.definition.takeWhile (· != '\x7d') = [] ∨
      ∃ regex, t.definition.takeWhile (· != '\x7d') = ':' :: regex := by
    unfold definition
    cases t.regex? with
    | none => exact .inl rfl
    | some regex => exact .inr ⟨regex.takeWhile (· != '\x7d'), rfl⟩
  rw [pathVariables, bracedParts_text, List.map_cons, t.beforeFirst_head hdefinition,
    List.filter_cons_of_pos (by simp [t.name_ne])]
  rfl

end Template

/-- A part of a path. -/
inductive PathPart where
  /-- A text without braces. -/
  | plain (text : List Char) (braceless : ∀ c ∈ text, c ≠ '\x7b' ∧ c ≠ '\x7d')
  /-- A template. -/
  | template (t : Template)

namespace PathPart

/-- A part as it is written. -/
def written : PathPart → List Char
  | plain text _ => text
  | template t => t.text

/-- The name in a part, if it is a template. -/
def names : PathPart → List (List Char)
  | plain _ _ => []
  | template t => [t.name]

/-- The variables that are read of a part. -/
def params : PathPart → List (List Char)
  | plain _ _ => []
  | template t => t.name :: t.strays

theorem opening_not_mem_plain {text : List Char} (h : ∀ c ∈ text, c ≠ '\x7b' ∧ c ≠ '\x7d') :
    '\x7b' ∉ text :=
  fun hmem => (h _ hmem).1 rfl

theorem closes_written (part : PathPart) : Closes part.written := by
  cases part with
  | plain text braceless => exact closes_of_not_mem (opening_not_mem_plain braceless)
  | template t => exact t.closes_text

theorem pathVariables_written (part : PathPart) : pathVariables part.written = part.params := by
  cases part with
  | plain text braceless => exact pathVariables_of_not_mem (opening_not_mem_plain braceless)
  | template t => exact t.pathVariables_text

end PathPart

/-- The path that is made of parts. -/
def pathOf (parts : List PathPart) : List Char :=
  parts.flatMap PathPart.written

/-- The variables of a path are those of its parts. -/
theorem pathVariables_pathOf (parts : List PathPart) :
    pathVariables (pathOf parts) = parts.flatMap PathPart.params := by
  induction parts with
  | nil => exact pathVariables_of_not_mem (by simp [pathOf])
  | cons part rest ih =>
    rw [pathOf, List.flatMap_cons, pathVariables_append part.closes_written,
      part.pathVariables_written, ← pathOf, ih, List.flatMap_cons]

theorem mem_params_iff {part : PathPart} {v : List Char} :
    v ∈ part.params ↔ v ∈ part.names ∨ ∃ t, part = .template t ∧ v ∈ t.strays := by
  cases part with
  | plain text braceless => simp [PathPart.params, PathPart.names]
  | template t => simp [PathPart.params, PathPart.names]

/-- The variables of a path are the names of its templates, and what is read behind the first closing
brace of a regular expression. They are the names alone where no brace is opened there. -/
theorem mem_pathVariables_pathOf (parts : List PathPart) :
    (∀ v, v ∈ pathVariables (pathOf parts) ↔
      v ∈ parts.flatMap PathPart.names ∨ ∃ t, PathPart.template t ∈ parts ∧ v ∈ t.strays) ∧
    ((∀ t, PathPart.template t ∈ parts → '\x7b' ∉ t.behind) →
      ∀ v, v ∈ pathVariables (pathOf parts) ↔ v ∈ parts.flatMap PathPart.names) := by
  have hall : ∀ v, v ∈ pathVariables (pathOf parts) ↔
      v ∈ parts.flatMap PathPart.names ∨ ∃ t, PathPart.template t ∈ parts ∧ v ∈ t.strays := by
    intro v
    rw [pathVariables_pathOf, List.mem_flatMap, List.mem_flatMap]
    constructor
    · rintro ⟨part, hpart, hv⟩
      rcases mem_params_iff.1 hv with hname | ⟨t, rfl, hstray⟩
      · exact .inl ⟨part, hpart, hname⟩
      · exact .inr ⟨t, hpart, hstray⟩
    · rintro (⟨part, hpart, hname⟩ | ⟨t, ht, hstray⟩)
      · exact ⟨part, hpart, mem_params_iff.2 (.inl hname)⟩
      · exact ⟨.template t, ht, mem_params_iff.2 (.inr ⟨t, rfl, hstray⟩)⟩
  refine ⟨hall, fun hbehind v => ?_⟩
  rw [hall, or_iff_left]
  rintro ⟨t, ht, hstray⟩
  rw [Template.strays, pathVariables_of_not_mem (hbehind t ht)] at hstray
  exact absurd hstray List.not_mem_nil

theorem trim_code : trim "code".toList = "code".toList := by
  decide

/-- The path `/x/` with a code behind it that has a regular expression. -/
def codePath (regex : List Char) (h : Balanced regex) : List PathPart :=
  [.plain "/x/".toList (by simp),
    .template {
      before := []
      name := "code".toList
      after := []
      regex? := some regex
      blank_before := by simp [Blank]
      blank_after := by simp [Blank]
      name_ne := by simp
      trim_name := trim_code
      name_plain := by simp
      regex_balanced := by simpa using h }]

/-- A code of two letters. -/
def lettersPath : List PathPart :=
  codePath "[a-z]\x7b2\x7d".toList (by decide)

theorem mem_pathVariables_lettersPath :
    (∀ t, PathPart.template t ∈ lettersPath → '\x7b' ∉ t.behind) ∧
      ∀ v, v ∈ pathVariables (pathOf lettersPath) ↔ v ∈ lettersPath.flatMap PathPart.names := by
  have hbehind : ∀ t, PathPart.template t ∈ lettersPath → '\x7b' ∉ t.behind := by
    intro t ht
    simp only [lettersPath, codePath, List.mem_cons, List.not_mem_nil, or_false, reduceCtorEq,
      false_or, PathPart.template.injEq] at ht
    subst ht
    decide
  exact ⟨hbehind, (mem_pathVariables_pathOf lettersPath).2 hbehind⟩

/-- A code of two digits, a dash and three digits. -/
def digitsPath : List PathPart :=
  codePath "\\d\x7b2\x7d-\\d\x7b3\x7d".toList (by decide)

/-- The second count in the regular expression is read for a variable. -/
theorem pathVariables_digitsPath :
    digitsPath.flatMap PathPart.names = ["code".toList] ∧
      pathVariables (pathOf digitsPath) = ["code".toList, "3".toList] := by
  decide +kernel

end RamlBuild
