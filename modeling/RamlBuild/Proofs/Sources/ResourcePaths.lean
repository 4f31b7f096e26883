import Mathlib.Data.List.TakeWhile
import RamlBuild.Proofs.Sources.ConstantTable
import RamlBuild.Proofs.Text.Search
import RamlBuild.Sources.ResourcePaths

/-!
# Constants for the paths of a resource

A resource is told apart at three lines: the one with its root path, its declaration and its first
response class. The constants for its paths are inserted behind the declaration, and nothing else
changes.

## Main definitions

* `ResourceParts` — the lines of a resource, told apart
* `DeclaresPaths` — the block of constants for a root path, the paths below it and their variables

## Main results

* `declaresPaths_constants` — the constants of a resource are distinct, and there is one for each
  path and each variable that has a letter or a digit
* `injectUrlConstants_cases` — what becomes of a source without constants
-/

namespace RamlBuild

open Text

variable {p : Line → Bool} {line : Line} {ls before after : List Line} {source : String}
  {file : Path}

/-! ### The first line of a kind -/

/-- Lines told apart at the first one of a kind. -/
structure SplitsFirst (p : Line → Bool) (ls before : List Line) (line : Line)
    (after : List Line) : Prop where
  eq : ls = before ++ line :: after
  none_before : ∀ l ∈ before, p l = false
  here : p line = true

theorem exists_splitsFirst (h : ls.any p = true) : ∃ before line after,
    SplitsFirst p ls before line after := by
  induction ls with
  | nil => simp at h
  | cons l rest ih =>
    by_cases hl : p l = true
    · exact ⟨[], l, rest, rfl, by simp, hl⟩
    · rw [List.any_cons, Bool.eq_false_iff.2 hl, Bool.false_or] at h
      obtain ⟨before, line, after, hsplit⟩ := ih h
      refine ⟨l :: before, line, after, by rw [hsplit.eq]; rfl, ?_, hsplit.here⟩
      exact List.forall_mem_cons.2 ⟨Bool.eq_false_iff.2 hl, hsplit.none_before⟩

namespace SplitsFirst

variable (h : SplitsFirst p ls before line after)
include h

theorem any_eq_true : ls.any p = true := by
  rw [List.any_eq_true]
  exact ⟨line, by rw [h.eq]; simp, h.here⟩

theorem dropThrough_eq : dropThrough p ls = after := by
  have hdrop : ls.dropWhile (!p ·) = line :: after := by
    rw [h.eq, List.dropWhile_append_of_pos (fun l hl => by simp [h.none_before l hl]),
      List.dropWhile_cons_of_neg (by simp [h.here])]
  rw [dropThrough, hdrop, List.drop_one, List.tail_cons]

theorem takeWhile_eq : ls.takeWhile (!p ·) = before := by
  rw [h.eq, List.takeWhile_append_of_pos (fun l hl => by simp [h.none_before l hl]),
    List.takeWhile_cons_of_neg (by simp [h.here]), List.append_nil]

end SplitsFirst

theorem dropThrough_of_any_eq_false (h : ls.any p = false) : dropThrough p ls = [] := by
  have hdrop : ls.dropWhile (!p ·) = [] := by
    rw [List.dropWhile_eq_nil_iff]
    intro l hl
    simp [List.any_eq_false.1 h l hl]
  rw [dropThrough, hdrop, List.drop_nil]

/-- What follows the first start of a kind is what follows it on the first line that has it. -/
theorem findSome?_after? (start : String) (ls : List Line) :
    ls.findSome? (after? start.toList) =
      (ls.find? (startsWith start)).map (·.drop start.toList.length) := by
  induction ls with
  | nil => rfl
  | cons l rest ih =>
    rw [List.findSome?_cons, List.find?_cons, after?, startsWith]
    cases start.toList.isPrefixOf l with
    | true => rfl
    | false => exact ih

theorem SplitsFirst.find?_eq (h : SplitsFirst p ls before line after) :
    ls.find? p = some line := by
  rw [h.eq, List.find?_append, List.find?_eq_none.2 fun l hl => by simp [h.none_before l hl],
    List.find?_cons_of_pos h.here]
  rfl

/-! ### The parts of a resource -/

/-- A line with the root path. -/
def opensRoot (line : Line) : Bool := startsWith "@Path(\"" line

/-- A line that opens the declaration. -/
def opensDeclaration (line : Line) : Bool := startsWith "public " line

/-- A line that opens a response class. -/
def opensResponse (line : Line) : Bool := startsWith "  class" line

/-- The root path on its line: the text up to the next quote, or up to the end of the line. -/
def rootPathOn (line : Line) : List Char :=
  beforeFirst '"' (line.drop "@Path(\"".toList.length)

/-- The lines of a resource, told apart at its root path, its declaration and its first response
class. -/
structure ResourceParts (ls : List Line) where
  /-- The lines up to its declaration. -/
  ahead : List Line
  /-- The line with the root path. -/
  root : Line
  /-- The lines between the root path and the declaration. -/
  between : List Line
  /-- The declaration. -/
  declaration : Line
  /-- The lines of its methods. -/
  members : List Line
  /-- The first response class. -/
  response : Line
  /-- The lines behind. -/
  rest : List Line
  /-- The first line with a root path. -/
  root_first : SplitsFirst opensRoot ls ahead root (between ++ declaration :: members ++
    response :: rest)
  /-- The first declaration behind it. -/
  declaration_first : SplitsFirst opensDeclaration (between ++ declaration :: members ++
    response :: rest) between declaration (members ++ response :: rest)
  /-- The first response class behind that. -/
  response_first : SplitsFirst opensResponse (members ++ response :: rest) members response rest

namespace ResourceParts

variable (parts : ResourceParts ls)

/-- The lines up to and with the declaration. -/
def upToDeclaration : List Line :=
  parts.ahead ++ parts.root :: parts.between ++ [parts.declaration]

/-- The lines behind the declaration. -/
def behindDeclaration : List Line :=
  parts.members ++ parts.response :: parts.rest

theorem eq_append : ls = parts.upToDeclaration ++ parts.behindDeclaration := by
  conv_lhs => rw [parts.root_first.eq]
  simp [upToDeclaration, behindDeclaration]

/-- The paths of the methods. -/
def subPaths : List (List Char) := parts.members.filterMap subPath?

/-- The variables of the root path and of the paths of the methods. -/
def params : List (List Char) :=
  (rootPathOn parts.root :: parts.subPaths).flatMap pathVariables

end ResourceParts

/-- Lines without a declaration and a response class behind it. -/
def LacksResponses (ls : List Line) : Prop :=
  ¬∃ between declaration members response rest,
    ls = between ++ declaration :: (members ++ response :: rest) ∧
      opensDeclaration declaration = true ∧ opensResponse response = true

theorem subPath?_of_opensResponse (h : opensResponse line = true) : subPath? line = none := by
  obtain ⟨rest, rfl⟩ := startsWith_iff.1 h
  rfl

theorem isResponse_eq (line : Line) :
    ((subPath? line).isNone && startsWith "  class" line) = opensResponse line := by
  by_cases h : opensResponse line = true
  · rw [subPath?_of_opensResponse h]
    exact Bool.true_and _
  · rw [show startsWith "  class" line = false from Bool.eq_false_iff.2 h, Bool.and_false,
      Bool.eq_false_iff.2 h]

theorem suffix_dropThrough (h : p line = true) :
    after <:+ dropThrough p (before ++ line :: after) := by
  induction before with
  | nil =>
    rw [List.nil_append, dropThrough, List.dropWhile_cons_of_neg (by simp [h]), List.drop_one]
    exact List.suffix_rfl
  | cons l before ih =>
    by_cases hl : p l = true
    · rw [List.cons_append, dropThrough, List.dropWhile_cons_of_neg (by simp [hl]), List.drop_one,
        List.tail_cons]
      exact (List.suffix_cons _ after).trans (List.suffix_append before _)
    · rw [List.cons_append, dropThrough, List.dropWhile_cons_of_pos (by simp [hl])]
      exact ih

theorem lacksResponses_iff :
    LacksResponses ls ↔ (dropThrough opensDeclaration ls).any opensResponse = false := by
  rw [Bool.eq_false_iff, LacksResponses, not_iff_not]
  constructor
  · rintro ⟨between, declaration, members, response, rest, rfl, hdeclaration, hresponse⟩
    -- The first declaration stands no later than this one.
    have hmem : response ∈ dropThrough opensDeclaration
        (between ++ declaration :: (members ++ response :: rest)) :=
      (suffix_dropThrough hdeclaration).subset (by simp)
    exact List.any_eq_true.2 ⟨response, hmem, hresponse⟩
  · intro h
    cases hdeclared : ls.any opensDeclaration with
    | false => simp [dropThrough_of_any_eq_false hdeclared] at h
    | true =>
      obtain ⟨between, declaration, after, hfirst⟩ := exists_splitsFirst hdeclared
      rw [hfirst.dropThrough_eq] at h
      obtain ⟨members, response, rest, hresponse⟩ := exists_splitsFirst h
      exact ⟨between, declaration, members, response, rest, by rw [← hresponse.eq, ← hfirst.eq],
        hfirst.here, hresponse.here⟩

/-! ### Reading a resource -/

/-- What is read of a resource with all its parts. -/
theorem scan_of_parts (parts : ResourceParts (lines source)) (file : Path) :
    ResourcePaths.scan source file = .ok
      { root := rootPathOn parts.root
        subPaths := ordered parts.subPaths
        params := ordered parts.params
        insertAt := parts.upToDeclaration.length } := by
  have hroot : (lines source).findSome? (after? "@Path(\"".toList) =
      some (parts.root.drop "@Path(\"".toList.length) := by
    rw [findSome?_after?]
    exact congrArg _ parts.root_first.find?_eq
  have hbody : dropThrough (startsWith "public ") (dropThrough (startsWith "@Path(\"")
      (lines source)) = parts.behindDeclaration := by
    have hbehind : dropThrough (startsWith "@Path(\"") (lines source) = _ :=
      parts.root_first.dropThrough_eq
    rw [hbehind]
    exact parts.declaration_first.dropThrough_eq
  have hlength : (lines source).length - parts.behindDeclaration.length =
      parts.upToDeclaration.length := by
    rw [congrArg List.length parts.eq_append, List.length_append, Nat.add_sub_cancel]
  rw [ResourcePaths.scan, hroot]
  simp only [hbody, isResponse_eq, hlength]
  have hany : parts.behindDeclaration.any opensResponse = true :=
    parts.response_first.any_eq_true
  have hmembers : parts.behindDeclaration.takeWhile (!opensResponse ·) = parts.members :=
    parts.response_first.takeWhile_eq
  rw [if_pos hany, hmembers]
  rfl

theorem scan_of_no_root (h : (lines source).any opensRoot = false) (file : Path) :
    ResourcePaths.scan source file = .error (.missingRootPath file) := by
  have hroot : (lines source).findSome? (after? "@Path(\"".toList) = none := by
    rw [findSome?_after?, List.find?_eq_none.2, Option.map_none]
    exact List.any_eq_false.1 h
  rw [ResourcePaths.scan, hroot]

theorem scan_of_no_responses (hroot : SplitsFirst opensRoot (lines source) before line after)
    (h : LacksResponses after) (file : Path) :
    ResourcePaths.scan source file = .error (.missingResponseClasses file) := by
  have hsome : (lines source).findSome? (after? "@Path(\"".toList) =
      some (line.drop "@Path(\"".toList.length) := by
    rw [findSome?_after?]
    exact congrArg _ hroot.find?_eq
  have hbehind : dropThrough (startsWith "@Path(\"") (lines source) = after :=
    hroot.dropThrough_eq
  have hany : (dropThrough (startsWith "public ") after).any opensResponse = false :=
    lacksResponses_iff.1 h
  rw [ResourcePaths.scan, hsome]
  simp only [hbehind, isResponse_eq]
  rw [if_neg (by rw [hany]; exact Bool.false_ne_true)]

/-- The lines behind the root path either lack a part or can be told apart. -/
theorem exists_parts (hroot : SplitsFirst opensRoot ls before line after)
    (h : ¬LacksResponses after) : Nonempty (ResourceParts ls) := by
  rw [lacksResponses_iff, Bool.not_eq_false] at h
  have hdeclared : after.any opensDeclaration = true := by
    by_contra hnone
    rw [dropThrough_of_any_eq_false (Bool.eq_false_iff.2 hnone)] at h
    exact Bool.false_ne_true h
  obtain ⟨between, declaration, behind, hfirst⟩ := exists_splitsFirst hdeclared
  rw [hfirst.dropThrough_eq] at h
  obtain ⟨members, response, rest, hresponse⟩ := exists_splitsFirst h
  have hafter : after = between ++ declaration :: members ++ response :: rest := by
    rw [hfirst.eq, hresponse.eq]
    simp
  exact ⟨⟨before, line, between, declaration, members, response, rest, hafter ▸ hroot,
    hafter ▸ hresponse.eq ▸ hfirst, hresponse.eq ▸ hresponse⟩⟩

/-! ### The block of constants -/

/-- The declaration of the root path. -/
def rootDeclaration (root : List Char) : Line :=
  ResourcePaths.rootMarker ++ '"' :: root ++ "\";".toList

/-- The declaration of a path below the root path. -/
def pathDeclaration (path name : List Char) : Line :=
  "  String ".toList ++ name ++ " = ".toList ++ ResourcePaths.rootConstant ++ " + \"".toList ++
    path ++ "\";".toList

/-- The declaration of a variable. -/
def paramDeclaration (param name : List Char) : Line :=
  "  String ".toList ++ name ++ " = \"".toList ++ param ++ "\";".toList

/-- A text with an ASCII letter or digit. -/
def HasLetterOrDigit (text : List Char) : Prop :=
  ∃ c ∈ text, c.isAlphanum = true

/-- Constants with the values that they stand for: one for each of the values that has a letter or a
digit. -/
structure ConstantsFor (values : List (List Char)) (constants : List (List Char × List Char)) :
    Prop where
  nodup : (constants.map Prod.fst).Nodup
  mem_iff : ∀ value, value ∈ constants.map Prod.fst ↔ value ∈ values ∧ HasLetterOrDigit value

/-- A block that declares a root path, the paths below it and the variables of them all, a blank
line after each. -/
def DeclaresPaths (root : List Char) (subPaths params : List (List Char)) (block : List Line) :
    Prop :=
  ∃ paths vars : List (List Char × List Char),
    block = [rootDeclaration root, []] ++
        paths.flatMap (fun (path, name) => [pathDeclaration path name, []]) ++
        vars.flatMap (fun (param, name) => [paramDeclaration param name, []]) ∧
      ConstantsFor subPaths paths ∧ ConstantsFor params vars ∧
      -- No two of the constants have the same name.
      (ResourcePaths.rootConstant :: paths.map Prod.snd ++ vars.map Prod.snd).Nodup

theorem hasLetterOrDigit_iff {text : List Char} :
    HasLetterOrDigit text ↔ (!(constantName text).isEmpty) = true := by
  rw [Bool.not_eq_true', ← Bool.not_eq_true, List.isEmpty_iff, constantName_eq_nil_iff]
  simp [HasLetterOrDigit]

/-- A table has one constant for each of its values that has a letter or a digit. -/
theorem constantsFor_build (values : List (List Char)) (ending : List Char)
    (taken : List (List Char)) :
    ConstantsFor values (ConstantTable.build values ending taken).1.entries where
  nodup := by
    rw [ConstantTable.build, ConstantTable.map_fst_assign]
    exact (nodup_ordered values).filter _
  mem_iff value := by
    rw [ConstantTable.build, ConstantTable.map_fst_assign, List.mem_filter,
      ConstantTable.mem_ordered, hasLetterOrDigit_iff]

theorem ConstantsFor.congr {values values' : List (List Char)}
    {constants : List (List Char × List Char)} (h : ConstantsFor values constants)
    (hmem : ∀ value, value ∈ values ↔ value ∈ values') : ConstantsFor values' constants where
  nodup := h.nodup
  mem_iff value := by rw [h.mem_iff, hmem]

theorem DeclaresPaths.of_ordered {root : List Char} {subPaths params : List (List Char)}
    {block : List Line} (h : DeclaresPaths root (ordered subPaths) (ordered params) block) :
    DeclaresPaths root subPaths params block := by
  obtain ⟨paths, vars, hblock, hpaths, hvars, hnames⟩ := h
  exact ⟨paths, vars, hblock, hpaths.congr fun _ => ConstantTable.mem_ordered,
    hvars.congr fun _ => ConstantTable.mem_ordered, hnames⟩

/-- The constants for the paths of the methods, and the identifiers taken after them. -/
def pathTable (paths : ResourcePaths) : ConstantTable × List (List Char) :=
  ConstantTable.build paths.subPaths "_PATH".toList [ResourcePaths.rootConstant]

/-- The constants for the variables. -/
def paramTable (paths : ResourcePaths) : ConstantTable :=
  (ConstantTable.build paths.params "_VAR".toList (pathTable paths).2).1

theorem constants_eq (paths : ResourcePaths) :
    paths.constants = [rootDeclaration paths.root, []] ++
      (pathTable paths).1.entries.flatMap (fun (path, name) => [pathDeclaration path name, []]) ++
      (paramTable paths).entries.flatMap (fun (param, name) => [paramDeclaration param name, []]) :=
  rfl

/-- The names of the constants of a resource are distinct. -/
theorem nodup_constants (paths : ResourcePaths) :
    (ResourcePaths.rootConstant :: (pathTable paths).1.entries.map Prod.snd ++
      (paramTable paths).entries.map Prod.snd).Nodup := by
  obtain ⟨hnodup, hfresh, -⟩ := @ConstantTable.assign_names "_PATH".toList
    [ResourcePaths.rootConstant] (ordered paths.subPaths)
  obtain ⟨hkept, htaken⟩ := @ConstantTable.mem_taken_of_assign "_PATH".toList
    [ResourcePaths.rootConstant] (ordered paths.subPaths)
  obtain ⟨hnodup', hfresh', -⟩ := @ConstantTable.assign_names "_VAR".toList (pathTable paths).2
    (ordered paths.params)
  have hrest : (ResourcePaths.rootConstant ::
      (pathTable paths).1.entries.map Prod.snd).Nodup := by
    refine List.nodup_cons.2 ⟨?_, hnodup⟩
    intro hmem
    obtain ⟨entry, hentry, heq⟩ := List.mem_map.1 hmem
    exact hfresh entry hentry (List.mem_singleton.2 heq)
  refine List.Nodup.append hrest hnodup' ?_
  -- What the paths are called is taken before the variables are named.
  intro name hname hname'
  obtain ⟨entry, hentry, rfl⟩ := List.mem_map.1 hname'
  refine hfresh' entry hentry ?_
  rcases List.mem_cons.1 hname with heq | hname
  · rw [heq]
    exact hkept _ List.mem_cons_self
  · obtain ⟨path, hpath, heq⟩ := List.mem_map.1 hname
    rw [← heq]
    exact htaken path hpath

/-- The constants of a resource are distinct, and there is one for each path and each variable that
has a letter or a digit. -/
theorem declaresPaths_constants (paths : ResourcePaths) :
    DeclaresPaths paths.root paths.subPaths paths.params paths.constants :=
  ⟨(pathTable paths).1.entries, (paramTable paths).entries, constants_eq paths,
    constantsFor_build paths.subPaths _ _, constantsFor_build paths.params _ _,
    nodup_constants paths⟩

/-! ### Inserting the constants -/

/-- What becomes of a source that has no constants for its paths yet. -/
theorem injectUrlConstants_cases
    (hplain : ∀ line ∈ lines source, ¬ResourcePaths.rootMarker <+: line) (file : Path) :
    (injectUrlConstants source file = .error (.missingRootPath file) ↔
        ∀ line ∈ lines source, opensRoot line = false) ∧
      (injectUrlConstants source file = .error (.missingResponseClasses file) ↔
        ∃ before root after, SplitsFirst opensRoot (lines source) before root after ∧
          LacksResponses after) ∧
      (injectUrlConstants source file ≠ .error (.missingRootPath file) →
        injectUrlConstants source file ≠ .error (.missingResponseClasses file) →
          ∃ (parts : ResourceParts (lines source)) (block : List Line),
            injectUrlConstants source file =
              .ok (ofLines (parts.upToDeclaration ++ block ++ parts.behindDeclaration)) ∧
            DeclaresPaths (rootPathOn parts.root) parts.subPaths parts.params block) := by
  have hany : (lines source).any ResourcePaths.rootMarker.isPrefixOf = false := by
    rw [List.any_eq_false]
    intro line hline
    rw [List.isPrefixOf_iff_prefix]
    exact hplain line hline
  have hinject : injectUrlConstants source file =
      (ResourcePaths.scan source file).map fun paths =>
        ofLines ((lines source).take paths.insertAt ++ paths.constants ++
          (lines source).drop paths.insertAt) := by
    rw [injectUrlConstants, if_neg (by rw [hany]; exact Bool.false_ne_true)]
    cases ResourcePaths.scan source file <;> rfl
  rw [hinject]
  cases hroot : (lines source).any opensRoot with
  | false =>
    rw [scan_of_no_root hroot]
    refine ⟨iff_of_true rfl ?_, iff_of_false (by simp [Except.map]) ?_, fun h => absurd rfl h⟩
    · exact fun line hline => Bool.eq_false_iff.2 (List.any_eq_false.1 hroot line hline)
    · rintro ⟨before, root, after, hfirst, -⟩
      rw [hfirst.any_eq_true] at hroot
      contradiction
  | true =>
    obtain ⟨before, root, after, hfirst⟩ := exists_splitsFirst hroot
    have hsome : ¬∀ line ∈ lines source, opensRoot line = false := by
      intro hnone
      have hroot' := hnone root (by rw [hfirst.eq]; simp)
      rw [hfirst.here] at hroot'
      contradiction
    by_cases hlacks : LacksResponses after
    · rw [scan_of_no_responses hfirst hlacks]
      exact ⟨iff_of_false (by simp [Except.map]) hsome,
        iff_of_true rfl ⟨before, root, after, hfirst, hlacks⟩, fun _ h => absurd rfl h⟩
    · obtain ⟨parts⟩ := exists_parts hfirst hlacks
      rw [scan_of_parts parts]
      refine ⟨iff_of_false (by simp [Except.map]) hsome, iff_of_false (by simp [Except.map]) ?_, ?_⟩
      · rintro ⟨before', root', after', hfirst', hlacks'⟩
        -- There is one first line with a root path.
        rw [← hfirst.dropThrough_eq, hfirst'.dropThrough_eq] at hlacks
        exact hlacks hlacks'
      · rintro - -
        let paths : ResourcePaths := ⟨rootPathOn parts.root, ordered parts.subPaths,
          ordered parts.params, parts.upToDeclaration.length⟩
        refine ⟨parts, paths.constants, ?_, (declaresPaths_constants paths).of_ordered⟩
        have htake : (lines source).take parts.upToDeclaration.length = parts.upToDeclaration :=
          (congrArg (List.take _) parts.eq_append).trans List.take_left
        have hdrop : (lines source).drop parts.upToDeclaration.length = parts.behindDeclaration :=
          (congrArg (List.drop _) parts.eq_append).trans List.drop_left
        simp only [Except.map, htake, hdrop]
        rfl

/-- A resource with one method path, and a variable in it. -/
def studiesSource : String :=
  "@Path(\"/studies\")\npublic interface Studies \x7b\n  @Path(\"/\x7bid\x7d\")\n  class Found\n"

/-- The resource lacks nothing, so that it gets a block of constants. -/
theorem injectUrlConstants_studiesSource :
    (∀ line ∈ lines studiesSource, ¬ResourcePaths.rootMarker <+: line) ∧
      ∃ (parts : ResourceParts (lines studiesSource)) (block : List Line),
        injectUrlConstants studiesSource ⟨"Studies.java"⟩ =
          .ok (ofLines (parts.upToDeclaration ++ block ++ parts.behindDeclaration)) ∧
        DeclaresPaths (rootPathOn parts.root) parts.subPaths parts.params block := by
  have hplain : ∀ line ∈ lines studiesSource, ¬ResourcePaths.rootMarker <+: line := by
    decide
  have hroot : injectUrlConstants studiesSource ⟨"Studies.java"⟩ ≠
      .error (.missingRootPath ⟨"Studies.java"⟩) := by
    decide
  have hresponses : injectUrlConstants studiesSource ⟨"Studies.java"⟩ ≠
      .error (.missingResponseClasses ⟨"Studies.java"⟩) := by
    decide
  exact ⟨hplain, (injectUrlConstants_cases hplain ⟨"Studies.java"⟩).2.2 hroot hresponses⟩

/-- A path of digits alone has a constant too, called by its digits behind an underscore. -/
theorem digits_have_constant :
    (∀ c ∈ "/1".toList, c.isAlpha = false) ∧
      injectUrlConstants
          "@Path(\"/a\")\npublic interface A \x7b\n  @Path(\"/1\")\n  class B\n" ⟨"A.java"⟩ =
        .ok ("@Path(\"/a\")\npublic interface A \x7b\n  String ROOT_PATH = \"/a\";\n\n" ++
          "  String _1_PATH = ROOT_PATH + \"/1\";\n\n  @Path(\"/1\")\n  class B\n") := by
  have hplain : "/1".toList.all (!·.isAlpha) = true := by
    decide
  exact ⟨fun c hc => by simpa using List.all_eq_true.1 hplain c hc, by decide +kernel⟩

end RamlBuild
