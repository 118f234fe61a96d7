import ScenarioHost.Decimal.Layout
import ScenarioHost.Session
import ScenarioHost.Text.Json

/-!
The report on a session: its whole state as a JSON document.
-/
namespace ScenarioHost.Report

def single (x : Single) : Json := Json.ofOption .number x.toReport?

def message (m : GlobalMessage) : Json :=
  .object [("text", .string m.text), ("timeout", single m.timeout)]

def document (s : Session) : Json :=
  .object
    [("victory", Json.ofOption .string s.victory),
      ("paused", .boolean s.paused),
      ("banner", .string s.banner),
      ("global_message", Json.ofOption message s.globalMessage),
      ("elapsed_time", single s.elapsed),
      ("gm_functions", Json.strings (s.buttons.map Choice.label)),
      ("comms_message", Json.ofOption .string s.comms.message),
      ("comms_replies", Json.strings (s.comms.replies.map Choice.label)),
      ("comms_gm_requested", .boolean s.comms.gmRequested),
      ("settings", .object (s.sortedSettings.map fun e => (e.1, .string e.2))),
      ("additional_scripts", .number (toString s.scripts.length))]

def text (s : Session) : String := (document s).pretty

end ScenarioHost.Report
