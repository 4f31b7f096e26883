/-!
# File errors

The kinds of error that an operation on files or processes can end with.
-/

namespace RamlBuild

/-- How an operation on files or processes fails. -/
inductive IoError where
  /-- There is no such entry. -/
  | notFound
  /-- A directory stands where a file is needed. -/
  | isDirectory
  /-- Something else stands where a directory is needed. -/
  | notDirectory
  /-- The entry exists already. -/
  | alreadyExists
  /-- The operation is not permitted. -/
  | permissionDenied
  /-- The directory has entries. -/
  | directoryNotEmpty
  /-- The contents are not UTF-8 text. -/
  | invalidData
  /-- A name is longer than names may be. -/
  | nameTooLong
  /-- The arguments make no sense. -/
  | invalidInput
  /-- The entry is in use. -/
  | resourceBusy
  /-- The links of a path lead in a circle. -/
  | filesystemLoop
  /-- The file is no program. -/
  | notExecutable
  /-- There is no room left. -/
  | storageFull
  deriving DecidableEq, Repr, Inhabited

end RamlBuild
