import Yagi.Actions.Calls
import Yagi.Actions.Proofs
import Yagi.Build
import Yagi.ControlFlowGuard.Proofs
import Yagi.Decompile
import Yagi.Frame.Proofs
import Yagi.Keyboard.Proofs
import Yagi.Keyword.Boundary
import Yagi.Keyword.Untag
import Yagi.Lib.FirstWins
import Yagi.Lib.Handles
import Yagi.Lib.Journal
import Yagi.LocalTypes.Action
import Yagi.LocalTypes.Latest
import Yagi.LocalTypes.Once
import Yagi.Perform
import Yagi.Plugin.Keys
import Yagi.Plugin.Proofs
import Yagi.Plugin.Shown
import Yagi.Plugin.Spec
import Yagi.Rename.Action
import Yagi.Rename.Latest
import Yagi.Rename.Names
import Yagi.Rename.Others
import Yagi.Rename.Sync
import Yagi.Scope.Cache
import Yagi.Scope.Container
import Yagi.Scope.Imports
import Yagi.Scope.Kinds
import Yagi.Scope.Once
import Yagi.Scope.Queries
import Yagi.Scope.Ranges
import Yagi.Scope.Spaces
import Yagi.Session.Globals
import Yagi.Session.Proofs
import Yagi.Session.RoundTrip
import Yagi.Session.Shown
import Yagi.SymbolNames
import Yagi.Symbols.Keys
import Yagi.Symbols.Lookup
import Yagi.Symbols.Spec
import Yagi.Types.Arrays
import Yagi.Types.Core
import Yagi.Types.DetailTable
import Yagi.Types.Invariant
import Yagi.Types.Kinds
import Yagi.Types.Members
import Yagi.Types.ParamNames
import Yagi.Types.Requests
import Yagi.Types.Sizes
import Yagi.Types.Termination
import Yagi.Types.Tinfo
import Yagi.Types.Update
import Yagi.Types.Whole
import Yagi.Viewer
import Yagi.Session.Prototypes
