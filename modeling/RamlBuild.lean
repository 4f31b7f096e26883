import RamlBuild.Main
import RamlBuild.Proofs.Text.Lines
import RamlBuild.Proofs.Text.Literals
import RamlBuild.Proofs.Sources.Boxing
import RamlBuild.Proofs.Sources.Dates
import RamlBuild.Proofs.Sources.SubstitutedLiterals
import RamlBuild.Proofs.Build.Exec
import RamlBuild.Proofs.Files.Tree
import RamlBuild.Proofs.Files.Walk
import RamlBuild.Proofs.Files.Trail
import RamlBuild.Proofs.Files.Child
import RamlBuild.Proofs.Files.Replace
import RamlBuild.Proofs.Build.Files
import RamlBuild.Proofs.Build.Directories
import RamlBuild.Proofs.Tool.Site
import RamlBuild.Proofs.Tool.Lock
import RamlBuild.Proofs.Tool.Fits
import RamlBuild.Proofs.Tool.Building
import RamlBuild.Proofs.Tool.Session
import RamlBuild.Proofs.Sources.ConstantTable
import RamlBuild.Proofs.Text.Blank
import RamlBuild.Proofs.Sources.JsonField
import RamlBuild.Proofs.Files.Listing
import RamlBuild.Proofs.Files.Names
import RamlBuild.Proofs.Sources.ModelTypes
import RamlBuild.Proofs.Sources.Rewriting
import RamlBuild.Proofs.Sources.FieldConstants
import RamlBuild.Proofs.Sources.ResourcePaths
import RamlBuild.Proofs.Sources.Generated
import RamlBuild.Proofs.Sources.Reading
import RamlBuild.Proofs.Sources.Writing
import RamlBuild.Proofs.Sources.Outputs
import RamlBuild.Proofs.Sources.Stages
import RamlBuild.Proofs.Sources.Companions
import RamlBuild.Proofs.Build.Frame
import RamlBuild.Proofs.Tool.Minding
import RamlBuild.Proofs.Tool.Settled
import RamlBuild.Proofs.Tool.Convergence
import RamlBuild.Proofs.Files.InPlace
import RamlBuild.Proofs.Program.Running
import RamlBuild.Proofs.Raml.Generating
import RamlBuild.Proofs.Pipeline.Fresh
import RamlBuild.Proofs.Pipeline.Stops
import RamlBuild.Proofs.Build.Twins
import RamlBuild.Proofs.Sources.Determined
import RamlBuild.Proofs.Build.Ground
import RamlBuild.Proofs.Tool.Blind
import RamlBuild.Proofs.Raml.Blind
import RamlBuild.Proofs.Sources.ConstantName
import RamlBuild.Proofs.Sources.SharedTables
import RamlBuild.Proofs.Sources.ResponseType
import RamlBuild.Proofs.Files.Inside
import RamlBuild.Proofs.Files.Descent
import RamlBuild.Proofs.Files.Plainly
import RamlBuild.Proofs.Archive.Members
import RamlBuild.Proofs.Archive.Placing
import RamlBuild.Proofs.Archive.Unpacking
import RamlBuild.Proofs.Archive.Stored
import RamlBuild.Proofs.Archive.Contents
import RamlBuild.Proofs.Sources.PropertyOrder
import RamlBuild.Proofs.Tool.Recognition
import RamlBuild.Proofs.Tool.Failing
import RamlBuild.Proofs.Build.Tidy
import RamlBuild.Proofs.Archive.Operations
import RamlBuild.Proofs.Files.Fixed
import RamlBuild.Proofs.Tool.Artifact
import RamlBuild.Proofs.Tool.Workplace
import RamlBuild.Proofs.Web.Requests
import RamlBuild.Proofs.Program.Projects
import RamlBuild.Proofs.Tool.Kinds
import RamlBuild.Proofs.Tool.Kit
import RamlBuild.Proofs.Tool.Reinstall
import RamlBuild.Proofs.Files.DeadEnds
import RamlBuild.Proofs.Build.Temporary
import RamlBuild.Proofs.Sources.AllOrNothing
import RamlBuild.Proofs.Sources.PathVariables
import RamlBuild.Proofs.Sources.Discriminator
import RamlBuild.Proofs.Sources.TypedInterfaces
import RamlBuild.Proofs.Sources.References
import RamlBuild.Proofs.Sources.DateRounds
import RamlBuild.Proofs.Text.Words
import RamlBuild.Proofs.Sources.Commuting
import RamlBuild.Proofs.Text.Exchanges
import RamlBuild.Proofs.Sources.Retyped
import RamlBuild.Proofs.Sources.EnumValue
import RamlBuild.Proofs.Sources.FileResponse
import RamlBuild.Proofs.Sources.Landmarks
import RamlBuild.Proofs.Sources.Repointing
import RamlBuild.Proofs.Sources.SettledLines
import RamlBuild.Proofs.Sources.SettledResources
import RamlBuild.Proofs.Sources.DatePatterns
import RamlBuild.Proofs.Files.Components
import RamlBuild.Proofs.Raml.Containment
import RamlBuild.Proofs.Files.Beside
import RamlBuild.Proofs.Sources.Pairing
import RamlBuild.Proofs.Text.Snapshots
import RamlBuild.Proofs.Tool.Pinning
import RamlBuild.Proofs.Files.Copying
import RamlBuild.Proofs.Raml.Copies
import RamlBuild.Proofs.Sources.Effects
import RamlBuild.Proofs.Sources.Finished
import RamlBuild.Proofs.Sources.SettledModels
import RamlBuild.Proofs.Build.Atomicity
import RamlBuild.Proofs.Tool.Finding
import RamlBuild.Proofs.Sources.Rerun
