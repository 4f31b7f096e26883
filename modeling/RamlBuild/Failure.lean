import RamlBuild.Files.IoError
import RamlBuild.Sources.ShapeError
import RamlBuild.Text.Blank

/-!
# Failures

A failure is a cause together with the activities it interrupted, the outermost first. Causes with a
text of their own show it behind those activities.

A program fails when it ends with a status other than zero, or by a signal. What it wrote to its
error stream tells why. A release or an installation can lack what an installer relies on.

## Main definitions

* `ExitError`, `InstallError` — programs that failed, and what an installer can miss
* `Cause`, `Failure` — what went wrong, and within what
* `Failure.message` — the activities and the text of the cause
* `Failure.headline` — the outermost of these texts
-/

namespace RamlBuild

/-- A program that failed. -/
structure ExitError where
  /-- The program, as it was called. -/
  program : String
  /-- The exit status, unless a signal ended the program. -/
  status : Option Nat
  /-- What the program wrote to its error stream, as far as it was kept. -/
  stderr : String
  deriving DecidableEq, Repr

/-- The text of the error. -/
def ExitError.message (e : ExitError) : String :=
  let status :=
    match e.status with
    | some code => s!"status {code}"
    | none => "no status (terminated by signal)"
  let details := Text.trimmed e.stderr
  e.program ++ " exited with " ++ status ++ if details.isEmpty then "" else ":\n" ++ details

/-- What an installer can miss. -/
inductive InstallError where
  /-- No release is built for the platform. -/
  | unsupportedPlatform (platform : String)
  /-- A release has no asset for the platform. -/
  | missingAsset (tag platform : String)
  /-- A page of the latest release does not lead to a concrete one. -/
  | missingLocation (url : String)
  /-- A request was answered with a status other than success. -/
  | httpStatus (url : String) (status : Nat)
  /-- The version of a tool is still not a concrete one. -/
  | unresolvedVersion (tool : String)
  /-- A build or an archive does not hold the artifact of a tool. -/
  | missingArtifact (tool ending : String)
  deriving DecidableEq, Repr

/-- The text of the error. -/
def InstallError.message : InstallError → String
  | unsupportedPlatform platform => s!"no prebuilt release for platform {platform}"
  | missingAsset tag platform => s!"release {tag} has no {platform} asset"
  | missingLocation url => s!"{url} did not redirect to a concrete release"
  | httpStatus url status => s!"GET {url} returned {status}"
  | unresolvedVersion tool => s!"{tool} still targets \"latest\" after version resolution"
  | missingArtifact tool ending => s!"build of {tool} produced no artifact ending in {ending}"

/-- What went wrong. -/
inductive Cause where
  /-- An operation on files or processes failed; `attempt` says which. -/
  | io (error : IoError) (attempt : String)
  /-- An archive cannot be read or unpacked. -/
  | archive
  /-- Generated sources have the wrong shape. -/
  | shape (error : ShapeError)
  /-- An installer misses something. -/
  | install (error : InstallError)
  /-- A program failed. -/
  | exit (error : ExitError)
  /-- A request could not be made or its answer not be understood. -/
  | http
  /-- A configuration is not valid, because of an unknown key where one is given. -/
  | configuration (unknownKey : Option String)
  /-- A text is not the expected JSON. -/
  | json
  /-- Anything else, told by a text. -/
  | told (text : String)
  deriving DecidableEq, Repr

/-- The text of a cause, where it belongs to the message of a failure. -/
def Cause.text? : Cause → Option String
  | shape error => some error.message
  | install error => some error.message
  | exit error => some error.message
  | told text => some text
  | io .. | archive | http | configuration _ | json => none

/-- The text of a cause in any case. -/
def Cause.summary : Cause → String
  | io _ attempt => attempt
  | archive => "malformed archive"
  | http => "request failed"
  | configuration (some key) => s!"unknown key {key}"
  | configuration none => "malformed configuration"
  | json => "malformed JSON"
  | cause => cause.text?.getD ""

/-- A cause and the activities it interrupted. -/
structure Failure where
  /-- The interrupted activities, the outermost first. -/
  activities : List String
  /-- What went wrong. -/
  cause : Cause
  deriving DecidableEq, Repr

namespace Failure

/-- A failure that interrupted nothing else. -/
def of (cause : Cause) : Failure := ⟨[], cause⟩

/-- A failure told by a text. -/
def told (text : String) : Failure := of (.told text)

/-- The failure within one more activity. -/
def within (failure : Failure) (activity : String) : Failure :=
  { failure with activities := activity :: failure.activities }

/-- The activities and the text of the cause, from the outermost inwards. -/
def message (failure : Failure) : String :=
  ": ".intercalate (failure.activities ++ failure.cause.text?.toList)

/-- The outermost activity, or what went wrong when nothing was interrupted. -/
def headline (failure : Failure) : String :=
  match failure.activities with
  | activity :: _ => activity
  | [] => failure.cause.summary

end Failure

end RamlBuild
