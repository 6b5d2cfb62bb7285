namespace SwiftInventory

inductive Severity
  | debug
  | info
  | warning
  | error
  | critical
deriving DecidableEq

namespace Severity

def label : Severity → String
  | debug => "DEBUG"
  | info => "INFO"
  | warning => "WARNING"
  | error => "ERROR"
  | critical => "CRITICAL"

def rank : Severity → Int
  | debug => 10
  | info => 20
  | warning => 30
  | error => 40
  | critical => 50

end Severity

structure Message where
  severity : Severity
  text : String
deriving DecidableEq

protected def Message.toString (m : Message) : String := m.severity.label ++ " " ++ m.text

end SwiftInventory
