import ScenarioHost.Binary.Double
import ScenarioHost.Binary.Format
import ScenarioHost.Binary.Single
import ScenarioHost.Catalog
import ScenarioHost.CommandLine
import ScenarioHost.Config
import ScenarioHost.ConfigFile
import ScenarioHost.Console
import ScenarioHost.Decimal.Layout
import ScenarioHost.Decimal.Numeral
import ScenarioHost.Decimal.Shortest
import ScenarioHost.EditorSettings
import ScenarioHost.Engine
import ScenarioHost.Entities
import ScenarioHost.Failure
import ScenarioHost.Files
import ScenarioHost.Headless
import ScenarioHost.Host.Boundary
import ScenarioHost.Host.Callbacks
import ScenarioHost.Host.Classes
import ScenarioHost.Host.Conversion
import ScenarioHost.Host.Environments
import ScenarioHost.Host.Interface
import ScenarioHost.Host.Loading
import ScenarioHost.Host.Printing
import ScenarioHost.Host.Scripts
import ScenarioHost.Ini
import ScenarioHost.Library
import ScenarioHost.Lua.Builtin
import ScenarioHost.Lua.Eval
import ScenarioHost.Lua.Heap
import ScenarioHost.Lua.Library.Argument
import ScenarioHost.Lua.Library.Base
import ScenarioHost.Lua.Library.Initial
import ScenarioHost.Lua.Library.Numbers
import ScenarioHost.Lua.Library.Strings
import ScenarioHost.Lua.Library.Tables
import ScenarioHost.Lua.Numeral
import ScenarioHost.Lua.Operation
import ScenarioHost.Lua.Parser
import ScenarioHost.Lua.Pattern
import ScenarioHost.Lua.Scope
import ScenarioHost.Lua.Syntax
import ScenarioHost.Lua.Table
import ScenarioHost.Lua.Task
import ScenarioHost.Lua.Template
import ScenarioHost.Lua.Token
import ScenarioHost.Lua.Value
import ScenarioHost.Main
import ScenarioHost.ModuleName
import ScenarioHost.Program
import ScenarioHost.Reference
import ScenarioHost.Report
import ScenarioHost.Sector
import ScenarioHost.Session
import ScenarioHost.Stubs
import ScenarioHost.Text.Blank
import ScenarioHost.Text.Json
import ScenarioHost.Text.Utf8
import ScenarioHost.Version
import ScenarioHost.World
import ScenarioHost.Proofs.Action
import ScenarioHost.Proofs.Conduct
import ScenarioHost.Proofs.Laws
import ScenarioHost.Proofs.Operations
import ScenarioHost.Proofs.Regime
import ScenarioHost.Proofs.Conduct.Evaluation
import ScenarioHost.Proofs.Conduct.Library
import ScenarioHost.Proofs.Conduct.Strings
import ScenarioHost.Proofs.Conduct.Interface
import ScenarioHost.Proofs.Conduct.Engine
import ScenarioHost.Proofs.Conduct.Reaching
import ScenarioHost.Proofs.Runs
import ScenarioHost.Proofs.Streams
import ScenarioHost.Proofs.Callbacks
import ScenarioHost.Proofs.Lockstep
import ScenarioHost.Proofs.Lockstep.Engine
import ScenarioHost.Proofs.NestedLoads
import ScenarioHost.Proofs.Numerals
import ScenarioHost.Proofs.SectorNames
import ScenarioHost.Proofs.Texts
import ScenarioHost.Proofs.Encoding
import ScenarioHost.Proofs.Files
import ScenarioHost.Proofs.SettingsFiles
import ScenarioHost.Proofs.SavedSettings
import ScenarioHost.Proofs.Requiring
import ScenarioHost.Proofs.Bindings
import ScenarioHost.Proofs.Bootstrap
import ScenarioHost.Proofs.SessionHistory
import ScenarioHost.Proofs.Hosting
import ScenarioHost.Proofs.Handles
import ScenarioHost.Proofs.Isolation
import ScenarioHost.Proofs.IsolatedRuns
import ScenarioHost.Proofs.Chronicle
import ScenarioHost.Proofs.SubScripts
import ScenarioHost.Proofs.ScenarioCalls
import ScenarioHost.Proofs.ScenarioRuns
import ScenarioHost.Proofs.Annals
import ScenarioHost.Proofs.Buttons
import ScenarioHost.Proofs.Conversations
import ScenarioHost.Proofs.FailureReports
import ScenarioHost.Proofs.OverlayRequests
import ScenarioHost.Proofs.BoundedConsole
import ScenarioHost.Proofs.CatalogWrites
import ScenarioHost.Proofs.Containment
import ScenarioHost.Proofs.SessionCalls
import ScenarioHost.Proofs.SettingsLines
import ScenarioHost.Proofs.LoadedSettings
import ScenarioHost.Proofs.WholeDoubles
import ScenarioHost.Proofs.EntityNumbers
import ScenarioHost.Proofs.PrintedLines
import ScenarioHost.Proofs.TableFields
import ScenarioHost.Proofs.Classes
import ScenarioHost.Proofs.ClassHistory
import ScenarioHost.Proofs.EntityLives
import ScenarioHost.Proofs.Rounding
import ScenarioHost.Proofs.LeadingNumbers
import ScenarioHost.Proofs.SectorGrid
import ScenarioHost.Proofs.SectorLabels
import ScenarioHost.Proofs.StubLines
import ScenarioHost.Proofs.EditorSupport
import ScenarioHost.Proofs.ModuleNames
import ScenarioHost.Proofs.SingleOrder
import ScenarioHost.Proofs.ScenarioClock
import ScenarioHost.Proofs.DecimalGaps
import ScenarioHost.Proofs.RoundingIntervals
import ScenarioHost.Proofs.ShortestDecimals
import ScenarioHost.Proofs.PlainNumbers
import ScenarioHost.Proofs.RoundedTwice
import ScenarioHost.Proofs.TimeoutTexts
import ScenarioHost.Proofs.SavedTimeouts
import ScenarioHost.Proofs.SettingTexts
import ScenarioHost.Proofs.SettingArguments
import ScenarioHost.Proofs.GivenSettings
import ScenarioHost.Proofs.NumbersInFront
import ScenarioHost.Proofs.ErrorLayers
import ScenarioHost.Proofs.OverlayNames
