import TemplateCompiler.Batch
import TemplateCompiler.Cache
import TemplateCompiler.Call.Block
import TemplateCompiler.Call.Head
import TemplateCompiler.Call.Resolve
import TemplateCompiler.Call.Simple
import TemplateCompiler.Code.Expression
import TemplateCompiler.Code.Group
import TemplateCompiler.Code.Literal
import TemplateCompiler.Code.Output
import TemplateCompiler.CommandLine
import TemplateCompiler.Compile
import TemplateCompiler.CompileError
import TemplateCompiler.Compiler
import TemplateCompiler.Component.Construction
import TemplateCompiler.Component.Output
import TemplateCompiler.Component.Promotion
import TemplateCompiler.Configuration
import TemplateCompiler.Context
import TemplateCompiler.Diagnostic
import TemplateCompiler.Directive.Config
import TemplateCompiler.Directive.Content
import TemplateCompiler.Directive.Namespace
import TemplateCompiler.Directive.Pattern
import TemplateCompiler.Directive.Use
import TemplateCompiler.Files.Access
import TemplateCompiler.Files.Tree
import TemplateCompiler.Glob
import TemplateCompiler.Handler.Registry
import TemplateCompiler.Handler.Signature
import TemplateCompiler.Interpolation
import TemplateCompiler.Json
import TemplateCompiler.Keyed
import TemplateCompiler.Main
import TemplateCompiler.Manifest
import TemplateCompiler.Markers
import TemplateCompiler.Markup.Attribute
import TemplateCompiler.Markup.Element
import TemplateCompiler.Markup.Entity
import TemplateCompiler.Markup.Tag
import TemplateCompiler.Name
import TemplateCompiler.Options
import TemplateCompiler.Path
import TemplateCompiler.Report
import TemplateCompiler.Substitution
import TemplateCompiler.Sweep
import TemplateCompiler.Text.Basic
import TemplateCompiler.Text.Layout
import TemplateCompiler.Text.Number
import TemplateCompiler.Text.Place
import TemplateCompiler.Text.Span
import TemplateCompiler.Unicode.Alphabetic
import TemplateCompiler.Unicode.Case
import TemplateCompiler.Unicode.Number
import TemplateCompiler.Unicode.Ranges
import TemplateCompiler.Unicode.Whitespace
import TemplateCompiler.Unicode.Word
import TemplateCompiler.Proofs.Scanning
import TemplateCompiler.Proofs.Sweeping
import TemplateCompiler.Proofs.BlockMatching
import TemplateCompiler.Proofs.CacheTransparency
import TemplateCompiler.Proofs.Collecting
import TemplateCompiler.Proofs.Moments
import TemplateCompiler.Proofs.Nesting
import TemplateCompiler.Proofs.PassInvariants
import TemplateCompiler.Proofs.IdlePasses
import TemplateCompiler.Proofs.ConstructFree
import TemplateCompiler.Proofs.AliasTable
import TemplateCompiler.Proofs.ImportNames
import TemplateCompiler.Proofs.DefaultAlias
import TemplateCompiler.Proofs.FoundConstructs
import TemplateCompiler.Proofs.OutputModes
import TemplateCompiler.Proofs.TagLocality
import TemplateCompiler.Proofs.CallEnd
import TemplateCompiler.Proofs.CallArguments
import TemplateCompiler.Proofs.CanonicalPath
import TemplateCompiler.Proofs.DeclarationRuns
import TemplateCompiler.Proofs.DeclarationOrder
import TemplateCompiler.Proofs.Recompiling
import TemplateCompiler.Proofs.PromotedText
import TemplateCompiler.Proofs.TagEnding
import TemplateCompiler.Proofs.PromotedSites
import TemplateCompiler.Proofs.ComponentText
import TemplateCompiler.Proofs.PromotedElement
import TemplateCompiler.Proofs.BufferSteps
import TemplateCompiler.Proofs.UnbufferedCode
import TemplateCompiler.Proofs.HandlerSymbols
import TemplateCompiler.Proofs.QuietConstruction
import TemplateCompiler.Proofs.BufferBalance
import TemplateCompiler.Proofs.AtSigns
import TemplateCompiler.Proofs.NestedCompiles
import TemplateCompiler.Proofs.ErrorSpans
import TemplateCompiler.Proofs.ShownPositions
import TemplateCompiler.Proofs.PathPieces
import TemplateCompiler.Proofs.FileTrees
import TemplateCompiler.Proofs.FoundTemplates
import TemplateCompiler.Proofs.OutputPaths
import TemplateCompiler.Proofs.FileChanges
import TemplateCompiler.Proofs.CompiledFiles
import TemplateCompiler.Proofs.RepeatedRuns
import TemplateCompiler.Proofs.ReportedErrors
import TemplateCompiler.Proofs.StoredForms
import TemplateCompiler.Proofs.RunAccount
import TemplateCompiler.Proofs.PathSpellings
import TemplateCompiler.Proofs.RegisteredHandlers
import TemplateCompiler.Proofs.InterpolatedPieces
import TemplateCompiler.Proofs.ReadBack
import TemplateCompiler.Proofs.CodeScan
import TemplateCompiler.Proofs.EmbeddedExpressions
import TemplateCompiler.Proofs.SingleArguments
import TemplateCompiler.Proofs.ArgumentGroups
import TemplateCompiler.Proofs.EmittedCalls
import TemplateCompiler.Proofs.DecimalPoints
import TemplateCompiler.Proofs.TagPairs
import TemplateCompiler.Proofs.EndTags
import TemplateCompiler.Proofs.BlockPairs
import TemplateCompiler.Proofs.SimpleCallSites
import TemplateCompiler.Proofs.Substituting
import TemplateCompiler.Proofs.BoundParameters
import TemplateCompiler.Proofs.ContentSites
import TemplateCompiler.Proofs.UseLines
import TemplateCompiler.Proofs.ConfigEntries
import TemplateCompiler.Proofs.ConfigLines
import TemplateCompiler.Proofs.ReadingSteps
import TemplateCompiler.Proofs.Numerals
import TemplateCompiler.Proofs.CharacterReferences
import TemplateCompiler.Proofs.TagTiling
import TemplateCompiler.Proofs.AttributeMaps
import TemplateCompiler.Proofs.MatchTrials
import TemplateCompiler.Proofs.AcceptedMatches
import TemplateCompiler.Proofs.ClaimedSpace
import TemplateCompiler.Proofs.LinePositions
