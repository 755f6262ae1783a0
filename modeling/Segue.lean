import Segue.Timeline
import Segue.Json.Reader
import Segue.Json.Printer
import Segue.Decimal.Numeral
import Segue.Curve
import Segue.Decimal.Read
import Segue.Decimal.Notation
import Segue.Settings.Text
import Segue.Settings.Flavor
import Segue.Duration
import Segue.Toml.Document
import Segue.Config.Text
import Segue.Disk
import Segue.Settings.Load
import Segue.Command.Values
import Segue.Shader.Pack
import Segue.Shader.Wrap
import Segue.Seek
import Segue.Task
import Segue.Media.Source
import Segue.Cache.Basic
import Segue.Cache.Build
import Segue.Cache.Perform
import Segue.Rehearsal.Caching
import Segue.Rehearsal.Seeks
import Segue.Compositor
import Segue.Export.Basic
import Segue.Export.Run
import Segue.Export.Perform
import Segue.Rehearsal.Stage
import Segue.Rehearsal.Exporting
import Segue.Preview
import Segue.Rehearsal.Previewing
import Segue.Url.Address
import Segue.Export.Directory
import Segue.Media.Footage
import Segue.Glsl.Expansion
import Segue.Glsl.Expr
import Segue.Glsl.Signature
import Segue.Glsl.Reading
import Segue.Glsl.Qualifier
import Segue.Glsl.Expr.Parser
import Segue.Glsl.Declaration
import Segue.Glsl.Statement
import Segue.Glsl.Program
import Segue.Shader.Validate
import Segue.Command.Arguments
import Segue.Command.Resolve
import Segue.Command.Frames
import Segue.Command.Run
import Segue.Report
import Segue.Main
import Segue.Proofs.Cache.Move
import Segue.Proofs.Cache.Session
import Segue.Proofs.Cache.Ownership
import Segue.Proofs.Cache.Contents
import Segue.Proofs.Cache.Alone
import Segue.Proofs.Cache.LastCall
import Segue.Proofs.Clock
import Segue.Proofs.Seek
import Segue.Proofs.Export.Session
import Segue.Proofs.Export.Books
import Segue.Proofs.Export.Steps
import Segue.Proofs.Export.Replies
import Segue.Proofs.Export.Ledger
import Segue.Proofs.Export.Changes
import Segue.Proofs.Export.Soundness
import Segue.Proofs.Export.Delivery
import Segue.Proofs.Export.Ending
import Segue.Proofs.Export.Later
import Segue.Proofs.Export.Complete
import Segue.Proofs.Export.Abort
import Segue.Proofs.Export.Shared
import Segue.Proofs.Export.Newest
import Segue.Proofs.Export.Clear
import Segue.Proofs.Cache.Lookup
import Segue.Proofs.Preview
import Segue.Proofs.Shader.Std140
import Segue.Proofs.Shader.Layout
import Segue.Proofs.Cache.Filling
import Segue.Proofs.Cache.Turns
import Segue.Proofs.Cache.Ceiling
import Segue.Proofs.Cache.Loss
import Segue.Proofs.Seekable
import Segue.Proofs.Export.Storyboard
import Segue.Proofs.Export.Room
import Segue.Proofs.Export.Countdown
import Segue.Proofs.Export.Scene
import Segue.Proofs.Export.Custody
import Segue.Proofs.Export.InStep
import Segue.Proofs.Export.Enacted
import Segue.Proofs.Export.Clocked
import Segue.Proofs.Rehearsal
import Segue.Proofs.Keyed
import Segue.Proofs.Shader.Buffer
import Segue.Proofs.Shader.Write
import Segue.Proofs.Registry
import Segue.Proofs.Shader.Rename
import Segue.Proofs.Shader.Statements
import Segue.Proofs.Shader.Wrap
import Segue.Proofs.Words
import Segue.Proofs.Shader.Declares
import Segue.Proofs.Shader.Agreement
import Segue.Proofs.Shader.Grammar
import Segue.Proofs.Disk
import Segue.Proofs.Command.Resolve
import Segue.Proofs.Duration
import Segue.Proofs.Config
import Segue.Proofs.Timeline.Seamless
import Segue.Proofs.Timeline.Walk
import Segue.Proofs.Renderer.Lifecycle
import Segue.Proofs.Renderer.Programs
import Segue.Proofs.Renderer.Textures
import Segue.Proofs.Path
import Segue.Proofs.Promise
import Segue.Proofs.Command.Outputs
import Segue.Proofs.Command.Confined
import Segue.Proofs.Shader.Loading
import Segue.Proofs.Command.Packs
import Segue.Proofs.Command.Harmless
import Segue.Proofs.Command.Exported
import Segue.Proofs.Playhead
import Segue.Proofs.Command.Overrides
import Segue.Proofs.Endpoint
import Segue.Proofs.Frames
import Segue.Proofs.Easing
import Segue.Proofs.Curve.Accuracy
