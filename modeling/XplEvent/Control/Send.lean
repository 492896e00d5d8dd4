import XplEvent.Util.Split

/-!
# `MonitorSendScript` — the sender of a script

The sender of a script takes the script's lines from `UtilSplitString`, and
writes each behind a prefix, between a first and a last line with the name.
-/

namespace XplEvent.Control

/-- `SocketPrintf` of a prefix, a text and a newline. -/
def printLine (start text : CString) : CString := start ++ text ++ [LF]

/-- `MonitorSendScript`: what its calls of `SocketPrintf` write. -/
def MonitorSendScript (theScript id : CString) : Except Fault (List CString) := do
  let lines ← Util.splitString theScript LF
  return [printLine (cstr "sb:") id] ++ lines.map (printLine (cstr "sl:")) ++
    [printLine (cstr "se:") id]

end XplEvent.Control
