import PackLint.Component
import PackLint.Document
import PackLint.Document.File
import PackLint.Documentation
import PackLint.Entries
import PackLint.Fault
import PackLint.Field
import PackLint.GameData
import PackLint.GameData.Fields
import PackLint.Metadata
import PackLint.Metadata.Block
import PackLint.Number.Binary64
import PackLint.Number.Reading
import PackLint.Number.Remainder
import PackLint.Number.Shortest
import PackLint.Pack.FileKind
import PackLint.Pack.Item
import PackLint.Pack.Mob
import PackLint.Pack.Property
import PackLint.Pack.Skill
import PackLint.Proofs.Document.Answers
import PackLint.Proofs.Document.Entries
import PackLint.Proofs.Document.Examination
import PackLint.Proofs.Document.Others
import PackLint.Proofs.Document.Reading
import PackLint.Proofs.Entries
import PackLint.Proofs.Number.Bare
import PackLint.Proofs.Pack.Answers
import PackLint.Proofs.Pack.Blind
import PackLint.Proofs.Pack.Entrywise
import PackLint.Proofs.Pack.Inside
import PackLint.Proofs.Pack.Lookups
import PackLint.Proofs.Pack.Mob
import PackLint.Proofs.Pack.Registration
import PackLint.Proofs.Report.Alike
import PackLint.Proofs.Report.Closed
import PackLint.Proofs.Report.Findings
import PackLint.Proofs.Report.Reordered
import PackLint.Proofs.Schema.Account
import PackLint.Proofs.Schema.Alike
import PackLint.Proofs.Schema.Answers
import PackLint.Proofs.Schema.Blind
import PackLint.Proofs.Schema.Closed
import PackLint.Proofs.Schema.Copies
import PackLint.Proofs.Schema.Entrywise
import PackLint.Proofs.Schema.Levels
import PackLint.Proofs.Schema.Order
import PackLint.Proofs.Schema.Outcome
import PackLint.Proofs.Schema.Parts
import PackLint.Proofs.Schema.Reference
import PackLint.Proofs.Schema.Registration
import PackLint.Proofs.Schema.Spelling
import PackLint.Proofs.Schema.Static
import PackLint.Proofs.Schema.Steady
import PackLint.Proofs.Schema.Strays
import PackLint.Proofs.Schema.Sweep
import PackLint.Proofs.Schema.TwoSites
import PackLint.Proofs.Schema.Uniform
import PackLint.Proofs.SkillLine.Alike
import PackLint.Proofs.SkillLine.Apart
import PackLint.Proofs.SkillLine.Block
import PackLint.Proofs.SkillLine.Boundary
import PackLint.Proofs.SkillLine.Clause
import PackLint.Proofs.SkillLine.Closed
import PackLint.Proofs.SkillLine.Config
import PackLint.Proofs.SkillLine.Direct
import PackLint.Proofs.SkillLine.Escape
import PackLint.Proofs.SkillLine.Hidden
import PackLint.Proofs.SkillLine.InOrder
import PackLint.Proofs.SkillLine.Mechanic
import PackLint.Proofs.SkillLine.Offset
import PackLint.Proofs.SkillLine.Positions
import PackLint.Proofs.SkillLine.Reading
import PackLint.Proofs.SkillLine.Roles
import PackLint.Proofs.SkillLine.Span
import PackLint.Proofs.Text.Source
import PackLint.Proofs.Tree.Copy
import PackLint.Proofs.Tree.Dotted
import PackLint.Proofs.Tree.Entry
import PackLint.Proofs.Tree.Height
import PackLint.Proofs.Tree.Occurrence
import PackLint.Proofs.Tree.Placed
import PackLint.Proofs.Tree.Within
import PackLint.Proofs.Workspace.FirstWins
import PackLint.Proofs.Workspace.History
import PackLint.Proofs.Workspace.Leftovers
import PackLint.Proofs.Workspace.LoadOrder
import PackLint.Proofs.Workspace.Ownership
import PackLint.Proofs.Workspace.Pass
import PackLint.Proofs.Workspace.References
import PackLint.Proofs.Workspace.Together
import PackLint.Proofs.Yaml.Event
import PackLint.Proofs.Yaml.Graph
import PackLint.Proofs.Yaml.Lexer
import PackLint.Proofs.Yaml.Scalar
import PackLint.Proofs.Yaml.Scan
import PackLint.Report
import PackLint.Schema.Basic
import PackLint.Schema.Check
import PackLint.Schema.Context
import PackLint.Schema.NumberRule
import PackLint.Schema.Properties
import PackLint.Schema.Reference
import PackLint.Schema.Registration
import PackLint.Schema.Resolve
import PackLint.Schema.StringRule
import PackLint.Schema.Sweep
import PackLint.Settings
import PackLint.Settings.Environment
import PackLint.Settings.VariableFile
import PackLint.SkillLine.Clause
import PackLint.SkillLine.Config
import PackLint.SkillLine.Escape
import PackLint.SkillLine.Mechanic
import PackLint.SkillLine.Token
import PackLint.Text.Blank
import PackLint.Text.Case
import PackLint.Text.CaseTable
import PackLint.Text.CharRange
import PackLint.Text.Digit
import PackLint.Text.EditDistance
import PackLint.Text.Glob
import PackLint.Text.Lines
import PackLint.Text.Pattern
import PackLint.Text.Position
import PackLint.Text.PrintableTable
import PackLint.Text.Quoted
import PackLint.Text.Source
import PackLint.Tree
import PackLint.Tree.KeyPath
import PackLint.Tree.Load
import PackLint.Value
import PackLint.Workspace
import PackLint.Yaml.Cursor
import PackLint.Yaml.Event
import PackLint.Yaml.Graph
import PackLint.Yaml.Scalar.Decode
import PackLint.Yaml.Scalar.Tag
import PackLint.Yaml.Scalar.Timestamp
import PackLint.Yaml.Token
import PackLint.Yaml.Token.Property
import PackLint.Yaml.Token.Scalar
import PackLint.Yaml.Token.Stream
import PackLint.Proofs.Tree.Unfolding
import PackLint.Proofs.Document.Locality
import PackLint.Proofs.Tree.Editing
import PackLint.Proofs.Schema.Proposals
import PackLint.Proofs.Schema.Recognition
import PackLint.Proofs.Schema.Leaves
import PackLint.Proofs.Schema.Tidy
import PackLint.Proofs.Schema.Content
import PackLint.Proofs.Schema.Respelt
import PackLint.Proofs.Schema.Plain
import PackLint.Proofs.Pack.Plain
import PackLint.Proofs.Schema.Referring
import PackLint.Proofs.Pack.Spellings
import PackLint.Proofs.Text.Positions
import PackLint.Proofs.Tree.Trail
import PackLint.Proofs.Schema.Swept
import PackLint.Proofs.SkillLine.Units
import PackLint.Proofs.SkillLine.Braces
import PackLint.Proofs.SkillLine.Visible
import PackLint.Proofs.SkillLine.Told
import PackLint.Proofs.SkillLine.Covered
import PackLint.Proofs.Tree.Chain
import PackLint.Proofs.Schema.Keyed
import PackLint.Proofs.Schema.Branch
import PackLint.Proofs.Schema.OpenMap
import PackLint.Proofs.Schema.Offers
import PackLint.Proofs.Text.EditDistance
import PackLint.Proofs.Schema.Suggestion
import PackLint.Proofs.SkillLine.Parts
import PackLint.Proofs.SkillLine.Content
import PackLint.Proofs.Yaml.Piece
import PackLint.Proofs.Yaml.Written
import PackLint.Proofs.Yaml.Spelt
import PackLint.Proofs.Yaml.Wording
import PackLint.Proofs.Schema.Quoting
import PackLint.Proofs.Text.Order
import PackLint.Proofs.Metadata.Block
import PackLint.Proofs.Yaml.Marks
import PackLint.Proofs.Yaml.Faults
import PackLint.Proofs.Yaml.Place
import PackLint.Proofs.Document.Problem
import PackLint.Proofs.Documentation
import PackLint.Proofs.Document.Documentation
import PackLint.Proofs.Report.Merging
import PackLint.Proofs.Text.Cut
import PackLint.Proofs.Text.Glob
import PackLint.Proofs.Pack.FileKind
import PackLint.Proofs.Number.Exact
import PackLint.Proofs.Value.Same
import PackLint.Proofs.Schema.Repeated
import PackLint.Proofs.Number.Text
import PackLint.Proofs.Number.Shortest
import PackLint.Proofs.Pack.Cooldown
