import RamlBuild.Proofs.Sources.ConstantTable
import RamlBuild.Proofs.Text.Blank
import RamlBuild.Proofs.Text.Literals
import RamlBuild.Sources.JsonField

/-!
# Sources that point at constants

Pointing a source at constants exchanges literals for references to constants, at most one on a line
and only where an annotation names its property. The class of constants declares each of them once,
with the text of the literal. So the references can be exchanged for the literals again.

## Main definitions

* `Reference` — a place in a line where a constant stands for a literal
* `OpensAnnotation`, `OpensValue`, `Within` — where an annotation names its property
* `PointedLine` — a line before and after it is pointed at constants
* `inlineConstants` — a line with its reference exchanged for the literal

## Main results

* `exists_pointedLines` — pointing a source at constants only exchanges literals where it may
* `filter_declares_eq` — a constant is declared once, with the text of the literal
* `inlineConstants_constant` — exchanging a reference for the literal again
* `patchJsonProperties_jsonFieldClass` — the class of constants itself is left as it is
-/

namespace RamlBuild

open Text

variable {table : ConstantTable} {line before rest after text key : Line}
  {value name : List Char} {start? : Line → Option (List Char × List Char)} {within : Bool}
  {ls earlier : List Line} {entries : List (List Char × List Char)}

/-! ### Where an annotation names its property -/

/-- `value =`, where blanks may stand behind both. -/
def IsValueKey (key : List Char) : Prop :=
  ∃ blanks blanks', Blank blanks ∧ Blank blanks' ∧
    key = "value".toList ++ blanks ++ '=' :: blanks'

/-- The start of an annotation up to the name of the property, on a line of its own. -/
def OpensAnnotation (before : List Char) : Prop :=
  ∃ blanks key, Blank blanks ∧ (key = [] ∨ IsValueKey key) ∧
    before = blanks ++ "@JsonProperty(".toList ++ key

/-- The start of a line up to the name of a property. -/
def OpensValue (before : List Char) : Prop :=
  ∃ blanks key, Blank blanks ∧ IsValueKey key ∧ before = blanks ++ key

/-- The lines end within an annotation: one of them reads `@JsonProperty(`, and none after it ends with
a parenthesis that closes. -/
def Within (ls : List Line) : Prop :=
  ∃ earlier opening since, ls = earlier ++ opening :: since ∧
    trim opening = "@JsonProperty(".toList ∧ ∀ line ∈ since, endsWith ")" (trim line) = false

theorem within_concat_of_opening (h : trim line = "@JsonProperty(".toList) :
    Within (earlier ++ [line]) :=
  ⟨earlier, line, [], rfl, h, by simp⟩

theorem Within.concat (h : Within earlier) (hline : endsWith ")" (trim line) = false) :
    Within (earlier ++ [line]) := by
  obtain ⟨first, opening, since, rfl, hopening, hsince⟩ := h
  refine ⟨first, opening, since ++ [line], by simp, hopening, ?_⟩
  intro l hl
  rcases List.mem_append.1 hl with hl | hl
  · exact hsince l hl
  · rwa [List.mem_singleton.1 hl]

/-! ### References -/

/-- A place in a line where a constant stands for a literal. -/
structure Reference where
  /-- The line before it. -/
  before : List Char
  /-- The text of the literal. -/
  value : List Char
  /-- The name of the constant. -/
  name : List Char
  /-- The line behind it. -/
  after : List Char

namespace Reference

/-- The line with the literal. -/
def literal (r : Reference) : Line :=
  r.before ++ '"' :: r.value ++ '"' :: r.after

/-- The line with the constant. -/
def constant (r : Reference) : Line :=
  r.before ++ jsonFieldClassName.toList ++ '.' :: r.name ++ r.after

end Reference

/-- The reference that a line comes to have. -/
def reference? (table : ConstantTable) (start? : Line → Option (List Char × List Char))
    (line : Line) : Option Reference := do
  let (before, rest) ← start? line
  let (value, after) ← literal? rest
  let name ← table.get? value
  some ⟨before, value, name, after⟩

theorem pointAtConstant_eq (table : ConstantTable)
    (start? : Line → Option (List Char × List Char)) (line : Line) :
    pointAtConstant table start? line =
      ((reference? table start? line).map Reference.constant).getD line := by
  unfold pointAtConstant reference?
  cases start? line with
  | none => rfl
  | some parts =>
    cases hliteral : literal? parts.2 with
    | none => simp [hliteral]
    | some literal =>
      cases hname : table.get? literal.1 with
      | none => simp [hliteral, hname]
      | some name => simp [hliteral, hname, Reference.constant]

/-- Where a line is told to start, it starts. -/
def Starts (start? : Line → Option (List Char × List Char)) (opens : List Char → Prop) : Prop :=
  ∀ line before rest, start? line = some (before, rest) → line = before ++ rest ∧ opens before

theorem eq_of_literal? (h : literal? text = some (value, after)) :
    text = '"' :: value ++ '"' :: after := by
  unfold literal? at h
  split at h
  · rw [eq_append_of_closeLiteral h, List.cons_append]
  · contradiction

/-- A line that comes to have a reference has the literal there, and the table has the constant. -/
theorem eq_literal_of_reference? {opens : List Char → Prop} (hstarts : Starts start? opens)
    {r : Reference} (h : reference? table start? line = some r) :
    line = r.literal ∧ opens r.before ∧ (r.value, r.name) ∈ table.entries := by
  unfold reference? at h
  obtain ⟨⟨before, rest⟩, hstart, h⟩ := Option.bind_eq_some_iff.1 h
  obtain ⟨⟨value, after⟩, hliteral, h⟩ := Option.bind_eq_some_iff.1 h
  obtain ⟨name, hname, h⟩ := Option.bind_eq_some_iff.1 h
  obtain rfl := Option.some.inj h
  obtain ⟨hline, hopens⟩ := hstarts line before rest hstart
  refine ⟨?_, hopens, ConstantTable.mem_of_get? hname⟩
  rw [hline, eq_of_literal? hliteral, Reference.literal, List.append_assoc]

theorem isValueKey_of_valueStart? (h : annotationStart?.valueStart? text = some rest) :
    ∃ key, IsValueKey key ∧ text = key ++ rest := by
  unfold annotationStart?.valueStart? at h
  obtain ⟨first, hfirst, h⟩ := Option.bind_eq_some_iff.1 h
  obtain ⟨second, hsecond, h⟩ := Option.bind_eq_some_iff.1 h
  obtain rfl := Option.some.inj h
  obtain ⟨blanks, hblanks, hsplit⟩ := exists_blank_trimStart first
  obtain ⟨blanks', hblanks', hsplit'⟩ := exists_blank_trimStart second
  refine ⟨_, ⟨blanks, blanks', hblanks, hblanks', rfl⟩, ?_⟩
  rw [eq_append_of_after? hfirst, hsplit, eq_append_of_after? hsecond]
  conv => lhs; rw [hsplit']
  simp

theorem take_length_sub (before rest : List Char) :
    (before ++ rest).take ((before ++ rest).length - rest.length) = before := by
  rw [List.length_append, Nat.add_sub_cancel, List.take_left']
  rfl

theorem starts_annotationStart? : Starts annotationStart? OpensAnnotation := by
  intro line before rest h
  unfold annotationStart? at h
  obtain ⟨opened, hopened, h⟩ := Option.bind_eq_some_iff.1 h
  obtain ⟨hbefore, hrest⟩ := Prod.mk.inj (Option.some.inj h)
  obtain ⟨blanks, hblanks, hline⟩ := exists_blank_trimStart line
  rw [eq_append_of_after? hopened] at hline
  have hkey : ∃ key, (key = [] ∨ IsValueKey key) ∧ opened = key ++ rest := by
    cases hvalue : annotationStart?.valueStart? opened with
    | none =>
      rw [hvalue] at hrest
      exact ⟨[], .inl rfl, hrest⟩
    | some rest' =>
      rw [hvalue] at hrest
      obtain rfl : rest' = rest := hrest
      obtain ⟨key, hkey, hsplit⟩ := isValueKey_of_valueStart? hvalue
      exact ⟨key, .inr hkey, hsplit⟩
  obtain ⟨key, hkey, rfl⟩ := hkey
  have hsplit : line = blanks ++ "@JsonProperty(".toList ++ key ++ rest := by
    rw [hline]
    simp only [List.append_assoc]
  rw [hrest, hsplit, take_length_sub] at hbefore
  rw [← hbefore]
  exact ⟨hsplit, blanks, key, hblanks, hkey, rfl⟩

theorem starts_valueStart? : Starts valueStart? OpensValue := by
  intro line before rest h
  unfold valueStart? at h
  obtain ⟨rest', hvalue, h⟩ := Option.bind_eq_some_iff.1 h
  obtain ⟨hbefore, rfl⟩ := Prod.mk.inj (Option.some.inj h)
  obtain ⟨blanks, hblanks, hline⟩ := exists_blank_trimStart line
  obtain ⟨key, hkey, hsplit⟩ := isValueKey_of_valueStart? hvalue
  rw [hsplit, ← List.append_assoc] at hline
  rw [hline, take_length_sub] at hbefore
  rw [← hbefore]
  exact ⟨hline, blanks, key, hblanks, hkey, rfl⟩

/-! ### Lines before and after -/

/-- A line that is kept, or that is pointed at a constant. -/
inductive PointedLine where
  /-- The line stays. -/
  | kept (line : Line)
  /-- The literal is exchanged for the constant. -/
  | pointed (reference : Reference)

namespace PointedLine

/-- The line before. -/
def old : PointedLine → Line
  | kept line => line
  | pointed r => r.literal

/-- The line after. -/
def new : PointedLine → Line
  | kept line => line
  | pointed r => r.constant

end PointedLine

/-- What becomes of a line. -/
def pointLine (table : ConstantTable) (start? : Line → Option (List Char × List Char))
    (line : Line) : PointedLine :=
  match reference? table start? line with
  | none => .kept line
  | some r => .pointed r

theorem new_pointLine : (pointLine table start? line).new = pointAtConstant table start? line := by
  rw [pointAtConstant_eq, pointLine]
  cases reference? table start? line <;> rfl

theorem old_pointLine {opens : List Char → Prop} (hstarts : Starts start? opens) :
    (pointLine table start? line).old = line := by
  unfold pointLine
  cases h : reference? table start? line with
  | none => rfl
  | some r => exact (eq_literal_of_reference? hstarts h).1.symm

theorem of_pointLine_eq_pointed {opens : List Char → Prop} (hstarts : Starts start? opens)
    {r : Reference} (h : pointLine table start? line = .pointed r) :
    opens r.before ∧ (r.value, r.name) ∈ table.entries := by
  unfold pointLine at h
  split at h
  · contradiction
  · rename_i r' href
    obtain rfl := PointedLine.pointed.inj h
    exact (eq_literal_of_reference? hstarts href).2

/-- A reference at a place where an annotation names its property, to a constant of the table;
`earlier` are the lines before it. -/
structure Reference.Fits (r : Reference) (table : ConstantTable) (earlier : List Line) : Prop where
  mem : (r.value, r.name) ∈ table.entries
  opens : OpensAnnotation r.before ∨ OpensValue r.before ∧ Within earlier

theorem pointLinesAtConstants_cons (table : ConstantTable) (within : Bool) (line : Line)
    (rest : List Line) :
    pointLinesAtConstants table within (line :: rest) =
      if within then
        (if trim line = [')'] then line else pointAtConstant table valueStart? line) ::
          pointLinesAtConstants table (!endsWith ")" (trim line)) rest
      else if trim line = "@JsonProperty(".toList then
        line :: pointLinesAtConstants table true rest
      else
        pointAtConstant table annotationStart? line :: pointLinesAtConstants table false rest := rfl

/-- Pointing lines at constants only exchanges literals where it may. -/
theorem exists_pointedLines (hwithin : within = true → Within earlier) :
    ∃ pieces : List PointedLine, pieces.map PointedLine.old = ls ∧
      pieces.map PointedLine.new = pointLinesAtConstants table within ls ∧
      ∀ first r others, pieces = first ++ .pointed r :: others →
        r.Fits table (earlier ++ first.map PointedLine.old) := by
  induction ls generalizing within earlier with
  | nil => exact ⟨[], rfl, rfl, by simp⟩
  | cons line rest ih =>
    -- One line is dealt with, and the others come after it.
    have hcons : ∀ (piece : PointedLine) (within' : Bool), piece.old = line →
        (∀ r, piece = .pointed r → r.Fits table earlier) →
        (within' = true → Within (earlier ++ [line])) →
        ∃ pieces : List PointedLine, pieces.map PointedLine.old = line :: rest ∧
          pieces.map PointedLine.new = piece.new :: pointLinesAtConstants table within' rest ∧
          ∀ first r others, pieces = first ++ .pointed r :: others →
            r.Fits table (earlier ++ first.map PointedLine.old) := by
      intro piece within' hold hfits hwithin'
      obtain ⟨pieces, hpieces, hnew, hall⟩ := ih hwithin'
      refine ⟨piece :: pieces, by rw [List.map_cons, hold, hpieces], by rw [List.map_cons, hnew], ?_⟩
      intro first r others heq
      cases first with
      | nil =>
        obtain ⟨rfl, -⟩ := List.cons.inj heq
        rw [List.map_nil, List.append_nil]
        exact hfits r rfl
      | cons piece' first =>
        obtain ⟨rfl, hothers⟩ := List.cons.inj heq
        have := hall first r others hothers
        rwa [List.append_assoc, List.singleton_append, ← hold] at this
    rw [pointLinesAtConstants_cons]
    split
    · rename_i hopen
      have hnext : (!endsWith ")" (trim line)) = true → Within (earlier ++ [line]) := fun h =>
        (hwithin hopen).concat (by simpa using h)
      split
      · exact hcons (.kept line) _ rfl (by simp) hnext
      · have := hcons (pointLine table valueStart? line) _ (old_pointLine starts_valueStart?) ?_ hnext
        · rwa [new_pointLine] at this
        · intro r hr
          obtain ⟨hopens, hmem⟩ := of_pointLine_eq_pointed starts_valueStart? hr
          exact ⟨hmem, .inr ⟨hopens, hwithin hopen⟩⟩
    · split
      · rename_i hopening
        exact hcons (.kept line) true rfl (by simp) fun _ => within_concat_of_opening hopening
      · have := hcons (pointLine table annotationStart? line) false
          (old_pointLine starts_annotationStart?) ?_ (by simp)
        · rwa [new_pointLine] at this
        · intro r hr
          obtain ⟨hopens, hmem⟩ := of_pointLine_eq_pointed starts_annotationStart? hr
          exact ⟨hmem, .inl hopens⟩

/-! ### The class of constants -/

/-- Whether a line declares a constant of a name. -/
def declares (name : List Char) (line : Line) : Bool :=
  ("  public static final String ".toList ++ name ++ " = ".toList).isPrefixOf line

/-- Words followed by a blank are told apart by what they begin with. -/
theorem append_prefix_append_iff {other rest rest' : List Char} (hname : ∀ c ∈ name, isWordChar c)
    (hother : ∀ c ∈ other, isWordChar c) :
    name ++ ' ' :: rest <+: other ++ ' ' :: (rest ++ rest') ↔ other = name := by
  have hspace : isWordChar ' ' = false := by decide
  constructor
  · rintro ⟨more, hmore⟩
    rw [List.append_assoc, List.cons_append] at hmore
    exact (eq_of_append_cons_eq hname hother hspace hspace hmore).symm
  · rintro rfl
    exact ⟨rest', by simp⟩

theorem declaration_eq (opening name value : List Char) :
    opening ++ name ++ " = \"".toList ++ value ++ "\";".toList =
      opening ++ (name ++ ' ' :: (['=', ' '] ++ ('"' :: value ++ ['"', ';']))) := by
  simp

theorem declares_jsonFieldLine {other : List Char} (hname : ∀ c ∈ name, isWordChar c)
    (hother : ∀ c ∈ other, isWordChar c) :
    declares name (jsonFieldLine value other) = decide (other = name) := by
  have hstart (opening : List Char) : opening ++ name ++ " = ".toList <+:
      opening ++ other ++ " = \"".toList ++ value ++ "\";".toList ↔ other = name := by
    rw [declaration_eq, List.append_assoc, List.prefix_append_right_inj]
    exact append_prefix_append_iff hname hother
  exact Bool.eq_iff_iff.2
    ((List.isPrefixOf_iff_prefix.trans (hstart _)).trans decide_eq_true_iff.symm)

/-- The declarations of the constants of a table. -/
def declarations (table : ConstantTable) : List Line :=
  table.entries.map fun (value, name) => jsonFieldLine value name

/-- A constant is declared once, with the text of its literal. -/
theorem filter_declares_eq (hnodup : (entries.map Prod.snd).Nodup)
    (hwords : ∀ entry ∈ entries, ∀ c ∈ entry.2, isWordChar c) (hmem : (value, name) ∈ entries) :
    (declarations ⟨entries⟩).filter (declares name) = [jsonFieldLine value name] := by
  induction entries with
  | nil => simp at hmem
  | cons entry rest ih =>
    obtain ⟨value', name'⟩ := entry
    have hname' : ∀ c ∈ name', isWordChar c := hwords (value', name') List.mem_cons_self
    have hname : ∀ c ∈ name, isWordChar c := hwords (value, name) hmem
    rw [List.map_cons, List.nodup_cons] at hnodup
    rw [declarations, List.map_cons, List.filter_cons, declares_jsonFieldLine hname hname']
    by_cases heq : name' = name
    · subst heq
      -- The others have other names.
      have hothers : (rest.map fun (value, name) => jsonFieldLine value name).filter
          (declares name') = [] := by
        rw [List.filter_eq_nil_iff]
        intro line hline
        obtain ⟨⟨value'', name''⟩, hentry, rfl⟩ := List.mem_map.1 hline
        rw [declares_jsonFieldLine hname' (hwords _ (List.mem_cons_of_mem _ hentry))]
        simp only [decide_eq_true_eq]
        intro heq
        exact hnodup.1 (List.mem_map.2 ⟨_, hentry, heq⟩)
      rw [if_pos (by simp), hothers]
      rcases List.mem_cons.1 hmem with heq | hmem
      · rw [(Prod.mk.inj heq).1]
      · exact absurd (List.mem_map.2 ⟨_, hmem, rfl⟩) hnodup.1
    · rw [if_neg (by simpa using heq)]
      refine ih hnodup.2 (fun entry hentry => hwords entry (List.mem_cons_of_mem _ hentry)) ?_
      rcases List.mem_cons.1 hmem with h | h
      · exact absurd (Prod.mk.inj h).2.symm heq
      · exact h

theorem declares_eq_false (h : line.head? ≠ some ' ') : declares name line = false := by
  have hopening : ("  public static final String ".toList).head? = some ' ' := by decide
  rw [declares, ← Bool.not_eq_true, List.isPrefixOf_iff_prefix]
  rintro ⟨rest, rfl⟩
  apply h
  rw [List.append_assoc, List.append_assoc, List.head?_append, hopening]
  rfl

/-- The lines of the class before the declarations. -/
def classHead (package : String) : List Line :=
  [("package " ++ package ++ ";").toList, [],
    ("public final class " ++ jsonFieldClassName ++ " \x7b").toList]

/-- The lines of the class of constants. -/
def classLines (package : String) (table : ConstantTable) : List Line :=
  classHead package ++ declarations table ++ [['\x7d']]

theorem jsonFieldClass_eq (package : String) (table : ConstantTable) :
    jsonFieldClass package table = ofLines (classLines package table) := rfl

theorem of_mem_classHead {package : String} (h : line ∈ classHead package) :
    line.head? ≠ some ' ' ∧ EndsPlain line ∧ ('\n' ∉ package.toList → '\n' ∉ line) := by
  simp only [classHead, List.mem_cons, List.not_mem_nil, or_false] at h
  rcases h with rfl | rfl | rfl
  · refine ⟨by simp, ?_, by simp⟩
    rw [String.toList_append]
    exact endsPlain_concat (by decide)
  · exact ⟨by decide, by decide, fun _ => by decide⟩
  · exact ⟨by decide, by decide, fun _ => by decide⟩

/-- The class declares a constant once, with the text of its literal. -/
theorem filter_declares_classLines (package : String) (hnodup : (entries.map Prod.snd).Nodup)
    (hwords : ∀ entry ∈ entries, ∀ c ∈ entry.2, isWordChar c) (hmem : (value, name) ∈ entries) :
    (classLines package ⟨entries⟩).filter (declares name) = [jsonFieldLine value name] := by
  have hhead : (classHead package).filter (declares name) = [] := by
    rw [List.filter_eq_nil_iff]
    intro line hline
    rw [declares_eq_false (of_mem_classHead hline).1]
    simp
  have hclose : [['\x7d']].filter (declares name) = [] := by
    rw [List.filter_eq_nil_iff]
    intro line hline
    rw [declares_eq_false (by rw [List.mem_singleton.1 hline]; decide)]
    simp
  rw [classLines, List.filter_append, List.filter_append, filter_declares_eq hnodup hwords hmem,
    hhead, hclose, List.nil_append, List.append_nil]

theorem endsPlain_jsonFieldLine (value name : List Char) : EndsPlain (jsonFieldLine value name) := by
  have hshape (opening : List Char) : opening ++ name ++ " = \"".toList ++ value ++ "\";".toList =
      opening ++ name ++ " = \"".toList ++ value ++ ['"'] ++ [';'] := by
    simp
  have hends (opening : List Char) :
      EndsPlain (opening ++ name ++ " = \"".toList ++ value ++ "\";".toList) := by
    rw [hshape]
    exact endsPlain_concat (by decide)
  exact hends _

theorem not_mem_jsonFieldLine {c : Char} (hvalue : c ∉ value) (hname : c ∉ name)
    (hopening : c ∉ "  public static final String ".toList) (hequals : c ∉ " = \"".toList)
    (hclose : c ∉ "\";".toList) : c ∉ jsonFieldLine value name := by
  have hshape (opening : List Char) (hopening : c ∉ opening) :
      c ∉ opening ++ name ++ " = \"".toList ++ value ++ "\";".toList := by
    simp only [List.mem_append, not_or]
    exact ⟨⟨⟨⟨hopening, hname⟩, hequals⟩, hvalue⟩, hclose⟩
  exact hshape _ hopening

/-- The class is read back as it was written. -/
theorem lines_jsonFieldClass {package : String} (hpackage : '\n' ∉ package.toList)
    (hvalues : ∀ entry ∈ entries, '\n' ∉ entry.1)
    (hwords : ∀ entry ∈ entries, ∀ c ∈ entry.2, isWordChar c) :
    lines (jsonFieldClass package ⟨entries⟩) = classLines package ⟨entries⟩ := by
  have hall : ∀ line ∈ classLines package ⟨entries⟩, '\n' ∉ line ∧ EndsPlain line := by
    intro line hline
    rw [classLines, List.mem_append, List.mem_append, List.mem_singleton] at hline
    rcases hline with (hline | hline) | rfl
    · exact ⟨(of_mem_classHead hline).2.2 hpackage, (of_mem_classHead hline).2.1⟩
    · obtain ⟨entry, hentry, rfl⟩ := List.mem_map.1 hline
      refine ⟨?_, endsPlain_jsonFieldLine entry.1 entry.2⟩
      refine not_mem_jsonFieldLine (hvalues entry hentry) ?_ (by decide) (by decide) (by decide)
      intro hmem
      exact absurd (hwords entry hentry '\n' hmem) (by decide)
    · exact ⟨by decide, by decide⟩
  rw [jsonFieldClass_eq]
  exact lines_ofLines_of_endsPlain (fun line hline => (hall line hline).1) fun line hline =>
    (hall line hline).2

/-- What closes a literal closes it whatever follows. -/
theorem closeLiteral_append {text : List Char} (h : closeLiteral text = some (value, after))
    (other : List Char) : closeLiteral (value ++ '"' :: other) = some (value, other) := by
  fun_induction closeLiteral text generalizing value after with
  | case1 => contradiction
  | case2 rest =>
    obtain ⟨rfl, -⟩ := Prod.mk.inj (Option.some.inj h)
    rfl
  | case3 => contradiction
  | case4 c rest ih =>
    obtain ⟨⟨value', after'⟩, hvalue, heq⟩ := Option.map_eq_some_iff.1 h
    obtain ⟨rfl, rfl⟩ := Prod.mk.inj heq
    rw [List.cons_append, List.cons_append, closeLiteral, ih hvalue]
    rfl
  | case5 c rest hquote hend hescape ih =>
    obtain ⟨⟨value', after'⟩, hvalue, heq⟩ := Option.map_eq_some_iff.1 h
    obtain ⟨rfl, rfl⟩ := Prod.mk.inj heq
    have hplain : isPlain c = true := by
      rw [isPlain, Bool.and_eq_true, bne_iff_ne, bne_iff_ne]
      refine ⟨fun h => hquote h, ?_⟩
      rintro rfl
      cases rest with
      | nil => exact hend rfl rfl
      | cons d rest => exact hescape d rest rfl rfl
    rw [List.cons_append, closeLiteral_cons_of_isPlain hplain, ih hvalue]
    rfl

/-- The literal of a declaration is the one that the constant stands for. -/
theorem literals_jsonFieldLine {text : List Char} (h : closeLiteral text = some (value, after))
    (hword : ∀ c ∈ name, isWordChar c) : literals (jsonFieldLine value name) = [value] := by
  have hquote : '"' ∉ name := by
    intro hmem
    exact absurd (hword _ hmem) (by decide)
  have hshape (opening : List Char) (hopening : '"' ∉ opening) : literals
      (opening ++ name ++ " = \"".toList ++ value ++ "\";".toList) = [value] := by
    have hsplit : opening ++ name ++ " = \"".toList ++ value ++ "\";".toList =
        (opening ++ name ++ [' ', '=', ' ']) ++ '"' :: (value ++ '"' :: [';']) := by
      simp
    rw [hsplit, literals_append_of_not_mem (by simp [hopening, hquote]), literals_quote,
      closeLiteral_append h]
    simp only [literals_of_not_mem (show '"' ∉ [';'] by decide)]
  exact hshape _ (by decide)

/-- A line that begins no annotation of a property stays. -/
theorem pointLinesAtConstants_eq_self {table : ConstantTable} {ls : List Line}
    (h : ∀ line ∈ ls, ¬"@JsonProperty(".toList <+: trimStart line) :
    pointLinesAtConstants table false ls = ls := by
  induction ls with
  | nil => rfl
  | cons line rest ih =>
    have hline := h line List.mem_cons_self
    have hopening : trim line ≠ "@JsonProperty(".toList := by
      intro heq
      have hstart : trim line <+: trimStart line := by
        rw [trim, trimEnd, ← List.reverse_suffix, List.reverse_reverse]
        exact List.dropWhile_suffix _
      exact hline (heq ▸ hstart)
    have hafter : after? "@JsonProperty(".toList (trimStart line) = none :=
      if_neg (by rwa [List.isPrefixOf_iff_prefix])
    rw [pointLinesAtConstants_cons, if_neg (by simp), if_neg hopening,
      ih fun line hline => h line (List.mem_cons_of_mem _ hline), pointAtConstant, annotationStart?,
      hafter]
    rfl

theorem not_annotation_of_mark {line blanks rest : Line} {c : Char} (hline : line = blanks ++ c :: rest)
    (hblanks : Blank blanks) (hc : isBlank c = false) (hne : c ≠ '@') :
    ¬"@JsonProperty(".toList <+: trimStart line := by
  rw [hline, trimStart_append hblanks hc]
  intro h
  exact hne (List.cons_prefix_cons.1
    (show '@' :: "JsonProperty(".toList <+: c :: rest from h)).1.symm

/-- The class of constants has no annotations. -/
theorem not_annotation_of_mem_classLines {package : String} {table : ConstantTable} {line : Line}
    (h : line ∈ classLines package table) : ¬"@JsonProperty(".toList <+: trimStart line := by
  rw [classLines, classHead, List.mem_append, List.mem_append, List.mem_singleton] at h
  rcases h with (h | h) | rfl
  · simp only [List.mem_cons, List.not_mem_nil, or_false] at h
    rcases h with rfl | rfl | rfl
    · have hline : ("package " ++ package ++ ";").toList =
          [] ++ 'p' :: ("ackage ".toList ++ package.toList ++ ";".toList) := by simp
      exact not_annotation_of_mark hline (by simp [Blank]) (by decide) (by decide)
    · decide
    · decide
  · obtain ⟨⟨value, name⟩, -, rfl⟩ := List.mem_map.1 h
    have hopening : "  public static final String ".toList =
        [' ', ' '] ++ 'p' :: "ublic static final String ".toList := by simp
    have hline (rest : Line) : "  public static final String ".toList ++ rest =
        [' ', ' '] ++ 'p' :: ("ublic static final String ".toList ++ rest) :=
      congrArg (· ++ rest) hopening
    exact not_annotation_of_mark ((declaration_eq _ name value).trans (hline _))
      (by simp [Blank, isBlank]) (by decide) (by decide)
  · decide

/-- The class of constants has nothing that points at constants. -/
theorem patchJsonProperties_jsonFieldClass {package : String} {fields : ConstantTable}
    (hpackage : '\n' ∉ package.toList) (hvalues : ∀ entry ∈ fields.entries, '\n' ∉ entry.1)
    (hwords : ∀ entry ∈ fields.entries, ∀ c ∈ entry.2, isWordChar c) (table : ConstantTable) :
    patchJsonProperties table (jsonFieldClass package fields) = jsonFieldClass package fields := by
  obtain ⟨entries⟩ := fields
  rw [patchJsonProperties, lines_jsonFieldClass hpackage hvalues hwords,
    pointLinesAtConstants_eq_self fun _ hline => not_annotation_of_mem_classLines hline]
  rfl

/-! ### Exchanging references for literals -/

/-- What a reference to a constant begins with. -/
def referenceMark : List Char := jsonFieldClassName.toList ++ ['.']

/-- The literal that a text begins with a reference to, and what follows the reference. -/
def constantAt? (entries : List (List Char × List Char)) (text : List Char) :
    Option (List Char × List Char) := do
  let rest ← after? referenceMark text
  let name := rest.takeWhile isWordChar
  let entry ← entries.find? (·.2 = name)
  some (entry.1, rest.drop name.length)

/-- The line with its first reference exchanged for the literal. -/
def inlineConstants (entries : List (List Char × List Char)) : Line → Line
  | [] => []
  | c :: rest =>
    match constantAt? entries (c :: rest) with
    | some (value, after) => '"' :: value ++ '"' :: after
    | none => c :: inlineConstants entries rest

theorem constantAt?_of_not_prefix (h : ¬referenceMark <+: text) : constantAt? entries text = none := by
  have hafter : after? referenceMark text = none := by
    rw [after?, if_neg (by rwa [List.isPrefixOf_iff_prefix])]
  rw [constantAt?, hafter]
  rfl

/-- What no reference begins in stays. -/
theorem inlineConstants_append
    (h : ∀ start part, before = start ++ part → part ≠ [] → ¬referenceMark <+: part ++ rest) :
    inlineConstants entries (before ++ rest) = before ++ inlineConstants entries rest := by
  induction before with
  | nil => rfl
  | cons c before ih =>
    have hfirst : constantAt? entries (c :: before ++ rest) = none :=
      constantAt?_of_not_prefix (h [] (c :: before) rfl (by simp))
    rw [List.cons_append] at hfirst ⊢
    rw [inlineConstants, hfirst]
    simp only [List.cons_append, List.cons.injEq, true_and]
    apply ih
    rintro start part rfl hpart
    exact h (c :: start) part rfl hpart

theorem inlineConstants_of_not_infix (h : ¬referenceMark <:+: line) :
    inlineConstants entries line = line := by
  have hline : inlineConstants entries (line ++ []) = line ++ inlineConstants entries [] := by
    apply inlineConstants_append
    rintro start part rfl - hstart
    rw [List.append_nil] at hstart
    exact h (hstart.isInfix.trans (List.suffix_append start part).isInfix)
  simpa [inlineConstants] using hline

/-- The place of a reference ends with a character that no reference begins with. -/
theorem exists_last_of_opens (h : OpensAnnotation before ∨ OpensValue before) :
    ∃ start c, before = start ++ [c] ∧ c ∉ referenceMark := by
  have hkey : ∀ {key}, IsValueKey key → ∃ start c, key = start ++ [c] ∧ c ∉ referenceMark := by
    rintro key ⟨blanks, blanks', -, hblanks', rfl⟩
    rcases List.eq_nil_or_concat blanks' with rfl | ⟨init, c, rfl⟩
    · exact ⟨_, '=', rfl, by decide⟩
    · refine ⟨"value".toList ++ blanks ++ '=' :: init, c, by simp, ?_⟩
      intro hmem
      have hall : ∀ c ∈ referenceMark, (!isBlank c) = true := List.all_eq_true.1 (by decide)
      have hc := hall c hmem
      rw [hblanks' c (by simp)] at hc
      exact Bool.false_ne_true hc
  rcases h with ⟨blanks, key, -, rfl | hvalue, rfl⟩ | ⟨blanks, key, -, hvalue, rfl⟩
  · refine ⟨blanks ++ "@JsonProperty".toList, '(', ?_, by decide⟩
    rw [List.append_nil, List.append_assoc]
    rfl
  · obtain ⟨start, c, rfl, hc⟩ := hkey hvalue
    exact ⟨_, c, (List.append_assoc _ start [c]).symm, hc⟩
  · obtain ⟨start, c, rfl, hc⟩ := hkey hvalue
    exact ⟨_, c, (List.append_assoc blanks start [c]).symm, hc⟩

theorem find?_name (hnodup : (entries.map Prod.snd).Nodup) (hmem : (value, name) ∈ entries) :
    entries.find? (·.2 = name) = some (value, name) := by
  induction entries with
  | nil => simp at hmem
  | cons entry rest ih =>
    rw [List.map_cons, List.nodup_cons] at hnodup
    rcases List.mem_cons.1 hmem with rfl | hmem
    · rw [List.find?_cons_of_pos (by simp)]
    · have hne : entry.2 ≠ name := by
        intro heq
        exact hnodup.1 (List.mem_map.2 ⟨_, hmem, heq.symm⟩)
      rw [List.find?_cons_of_neg (by simpa using hne), ih hnodup.2 hmem]

/-- A reference that ends where its name does can be exchanged for the literal again. -/
theorem inlineConstants_constant {r : Reference}
    (hopens : OpensAnnotation r.before ∨ OpensValue r.before)
    (hnodup : (entries.map Prod.snd).Nodup) (hmem : (r.value, r.name) ∈ entries)
    (hword : ∀ c ∈ r.name, isWordChar c) (hends : ∀ c ∈ r.after.head?, isWordChar c = false)
    (hplain : ¬referenceMark <:+: r.literal) : inlineConstants entries r.constant = r.literal := by
  obtain ⟨start, last, hbefore, hlast⟩ := exists_last_of_opens hopens
  have hconstant : r.constant = r.before ++ (referenceMark ++ (r.name ++ r.after)) := by
    simp [Reference.constant, referenceMark]
  rw [hconstant, inlineConstants_append]
  · have htake : (r.name ++ r.after).takeWhile isWordChar = r.name := by
      rw [List.takeWhile_append_of_pos hword]
      cases hafter : r.after with
      | nil => simp
      | cons c rest =>
        rw [List.takeWhile_cons_of_neg (by simp [hends c (by simp [hafter])]), List.append_nil]
    have hat : constantAt? entries (referenceMark ++ (r.name ++ r.after)) =
        some (r.value, r.after) := by
      simp [constantAt?, htake, find?_name hnodup hmem]
    rw [show referenceMark = 'J' :: "sonField.".toList from rfl, List.cons_append] at hat ⊢
    rw [inlineConstants, hat]
    simp [Reference.literal]
  · -- A reference that begins in what stands before would lie in it, or end with its last character.
    intro init part hsplit hpart hstart
    rcases List.prefix_or_prefix_of_prefix hstart (List.prefix_append part _) with hin | hout
    · apply hplain
      rw [Reference.literal, List.append_assoc, hsplit]
      exact (hin.isInfix.trans (List.suffix_append init part).isInfix).trans
        (List.prefix_append _ _).isInfix
    · obtain ⟨most, c, rfl⟩ := (List.eq_nil_or_concat part).resolve_left hpart
      rw [List.concat_eq_append] at hsplit hout
      rw [hbefore, ← List.append_assoc] at hsplit
      obtain ⟨-, hc⟩ := List.append_inj' hsplit rfl
      apply hlast
      rw [List.singleton_inj.1 hc]
      exact hout.subset (by simp)

end RamlBuild
