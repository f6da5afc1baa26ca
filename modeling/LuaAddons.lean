import LuaAddons.Lib.Exec
import LuaAddons.Lib.Lookup
import LuaAddons.Platform
import LuaAddons.Registry
import LuaAddons.Ownership
import LuaAddons.Script
import LuaAddons.Addon
import LuaAddons.Plugin
import LuaAddons.Growth
import LuaAddons.Effects
import LuaAddons.Hooks
import LuaAddons.Outcomes
import LuaAddons.Runs
import LuaAddons.Reentrancy
import LuaAddons.Lifecycle
import LuaAddons.Routing
import LuaAddons.SelfContained
import LuaAddons.Dispatch
import LuaAddons.Starting
import LuaAddons.Lockstep
import LuaAddons.Reloading
import LuaAddons.AutoReload
import LuaAddons.Shutdown
import LuaAddons.Registering
import LuaAddons.Sharing
import LuaAddons.Configuring
import LuaAddons.ObjectGraph
import LuaAddons.Retention
import LuaAddons.Packets
import LuaAddons.Lib.Frame
import LuaAddons.LuaApi
import LuaAddons.Callbacks
import LuaAddons.ScriptTables
import LuaAddons.InfoTable
import LuaAddons.ObjectHelper
import LuaAddons.Lib.References
import LuaAddons.Bridge
import LuaAddons.Leaking
import LuaAddons.Lib.Chains
import LuaAddons.Tables
import LuaAddons.TableLayout
import LuaAddons.Lib.Binary64
import LuaAddons.TableTraversal
import LuaAddons.SendPacket
import LuaAddons.Printing
import LuaAddons.Formats
import LuaAddons.Translator
import LuaAddons.Handles
import LuaAddons.Lib.Locality
import LuaAddons.Enumeration
import LuaAddons.Stale
import LuaAddons.Lib.Reading
import LuaAddons.Chunks
import LuaAddons.RoundTrip
import LuaAddons.Accepted
import LuaAddons.Lib.Backtracking
import LuaAddons.Patterns
import LuaAddons.Matching
import LuaAddons.Searching
import LuaAddons.Finding
import LuaAddons.Replacing
import LuaAddons.Unpacking
import LuaAddons.Members
