/-!
The functions that every environment has besides those that scripts define.
-/
namespace ScenarioHost

namespace Lua

inductive BaseFunction where
  | assert | collectgarbage | error | getfenv | getmetatable | ipairs | ipairsNext | load
  | loadstring | newproxy | next | pairs | pcall | rawequal | rawget | rawset | select
  | setfenv | setmetatable | tonumber | tostring | type | unpack | xpcall
deriving DecidableEq

def BaseFunction.number : BaseFunction → Nat
  | .assert => 2 | .type => 3 | .next => 4 | .pairs => 5 | .ipairsNext => 6 | .ipairs => 7
  | .getmetatable => 8 | .setmetatable => 9 | .getfenv => 10 | .setfenv => 11 | .rawget => 12
  | .rawset => 13 | .rawequal => 14 | .unpack => 15 | .select => 16 | .tonumber => 17
  | .tostring => 18 | .error => 19 | .pcall => 20 | .xpcall => 21 | .load => 23
  | .loadstring => 24 | .collectgarbage => 27 | .newproxy => 28

inductive StringFunction where
  | byte | char | find | format | gmatch | gsub | len | lower | match | rep | reverse | sub | upper
deriving DecidableEq

inductive TableFunction where
  | concat | foreach | foreachi | getn | insert | maxn | move | remove | sort
deriving DecidableEq

inductive MathFunction where
  | abs | acos | asin | atan | atan2 | ceil | cos | cosh | deg | exp | floor | fmod | frexp
  | ldexp | log | log10 | max | min | modf | pow | rad | random | randomseed | sin | sinh | sqrt
  | tan | tanh
deriving DecidableEq

inductive BitFunction where
  | arshift | band | bnot | bor | bswap | bxor | lshift | rol | ror | rshift | tobit | tohex
deriving DecidableEq

end Lua

inductive HostFunction where
  | random | irandom | print | translate | engineVersion | requireModule
  | createEntity | entityFunctions | createClass
  | scenarioSetting | scenarioVariation | onNewPlayerShip | globalMessage | victory | setBanner
  | scenarioTime
  | sectorName | sectorPosition
  | addGmFunction | clearGmFunctions | newScript
  | setCommsMessage | addCommsReply | commsSwitchToGm
deriving DecidableEq

inductive ControlFunction where
  | runGm | tryGm | selectReply | fireShip | clearScripts | advanceTime | openStreams | letGo
deriving DecidableEq

inductive HandleFunction where
  | run | setVariable | text
deriving DecidableEq

inductive Builtin where
  | base (f : Lua.BaseFunction)
  | string (f : Lua.StringFunction)
  | table (f : Lua.TableFunction)
  | math (f : Lua.MathFunction)
  | bit (f : Lua.BitFunction)
  | host (f : HostFunction)
  | control (f : ControlFunction)
  | handle (f : HandleFunction)
  /-- What a call of a class does: it makes an instance. -/
  | construct
  /-- The text of an error that a host function raised. -/
  | errorText
deriving DecidableEq

end ScenarioHost
