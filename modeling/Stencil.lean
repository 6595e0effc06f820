import Stencil.Text.Basic
import Stencil.Text.Brackets
import Stencil.Text.Casing
import Stencil.Text.Letters
import Stencil.Text.Markup
import Stencil.Text.Quoted
import Stencil.NameMap
import Stencil.Pattern.Basic
import Stencil.Pattern.Match
import Stencil.Pattern.Replacement
import Stencil.Rule
import Stencil.Artifact.Node
import Stencil.Artifact.Tag
import Stencil.Artifact.Statement
import Stencil.Artifact.Program
import Stencil.Layout.Basic
import Stencil.Layout.Resolve
import Stencil.Number.Power
import Stencil.Number.Binary
import Stencil.Number.Decimal
import Stencil.Number.Shortest
import Stencil.Data.Datum
import Stencil.Data.Json
import Stencil.Data.Toml
import Stencil.Data.Yaml
import Stencil.Files.Path
import Stencil.Files.Tree
import Stencil.Expr.Value
import Stencil.Expr.Token
import Stencil.Expr.Tree
import Stencil.Expr.Arithmetic
import Stencil.Expr.Filter
import Stencil.Expr.Eval
import Stencil.Error
import Stencil.Project.Options
import Stencil.Project.Exclude
import Stencil.Project.Compiler
import Stencil.Project.Config
import Stencil.Render.Scope
import Stencil.Render.Execution
import Stencil.Render.Renderer
import Stencil.Cli.Arguments
import Stencil.Cli.Command
import Stencil.Main
import Stencil.Proofs.Offset
import Stencil.Proofs.Division
import Stencil.Proofs.LayoutChain
import Stencil.Proofs.Path
import Stencil.Proofs.FileTree
import Stencil.Proofs.Respects
import Stencil.Proofs.ArtifactPath
import Stencil.Proofs.CacheTransparency
import Stencil.Proofs.Trim
import Stencil.Proofs.Rewriting
import Stencil.Proofs.Template
import Stencil.Proofs.Stages
import Stencil.Proofs.Directives
import Stencil.Proofs.Statements
import Stencil.Proofs.Compilation
import Stencil.Proofs.Chunks
import Stencil.Proofs.Letters
import Stencil.Proofs.Reading
import Stencil.Proofs.RoundTrip
import Stencil.Proofs.CallerLayout
import Stencil.Proofs.NestedView
import Stencil.Proofs.CacheRuns
import Stencil.Proofs.ArtifactNames
import Stencil.Proofs.Succeeded
import Stencil.Proofs.Executed
import Stencil.Proofs.LayoutContents
import Stencil.Proofs.Provenance
import Stencil.Proofs.PrintedProgram
import Stencil.Proofs.Echoes
import Stencil.Proofs.RegionLookup
import Stencil.Proofs.LayoutCycles
import Stencil.Proofs.RegionOverride
import Stencil.Proofs.Replacing
import Stencil.Proofs.CallerRestored
import Stencil.Proofs.ImportedVariables
import Stencil.Proofs.OffsetMatch
import Stencil.Proofs.LeftmostMatch
import Stencil.Proofs.RuleMatches
import Stencil.Proofs.DirectiveFree
import Stencil.Proofs.MadeDirectories
import Stencil.Proofs.CompileOutcome
import Stencil.Proofs.TreeChanges
import Stencil.Proofs.Discovery
import Stencil.Proofs.SecondRun
import Stencil.Proofs.IncludeStack
import Stencil.Proofs.LayoutPasses
import Stencil.Proofs.Substitution
import Stencil.Proofs.TagTokens
import Stencil.Proofs.TagSearch
import Stencil.Proofs.PatternSource
import Stencil.Proofs.RuleOrder
import Stencil.Proofs.Entities
import Stencil.Proofs.TopLevel
import Stencil.Proofs.RuleFaults
import Stencil.Proofs.Nesting
import Stencil.Proofs.OpenLoops
import Stencil.Proofs.CallArguments
import Stencil.Proofs.TomlData
import Stencil.Proofs.TrailingCommas
