import QueueScript.Json.Basic
/-!
Commands: what one block of a document asks for, and where in the document it stands.
Lines count from zero, except in the texts of messages, where they count from one.
-/

namespace QueueScript

inductive Kind where
  | send
  | receive
  | purge
  deriving DecidableEq, Repr

namespace Kind

def keyword : Kind → String
  | .send => "SEND"
  | .receive => "RECEIVE"
  | .purge => "PURGE"

def name : Kind → String
  | .send => "Send"
  | .receive => "Receive"
  | .purge => "Purge"

def all : List Kind := [.send, .receive, .purge]

def ofKeyword? (word : String) : Option Kind := all.find? (fun k => k.keyword == word)

end Kind

inductive ParameterKey where
  | profile
  | region
  | maxMessages
  | visibilityTimeout
  | waitTime
  deriving DecidableEq, Repr

namespace ParameterKey

def name : ParameterKey → String
  | .profile => "profile"
  | .region => "region"
  | .maxMessages => "max-messages"
  | .visibilityTimeout => "visibility-timeout"
  | .waitTime => "wait-time"

def all : List ParameterKey := [.profile, .region, .maxMessages, .visibilityTimeout, .waitTime]

def ofName? (name : String) : Option ParameterKey := all.find? (fun k => k.name == name)

def appliesTo : ParameterKey → Kind → Bool
  | .profile, _ => true
  | .region, _ => true
  | _, kind => kind == .receive

end ParameterKey

structure Parameter where
  key : ParameterKey
  value : String
  line : Nat
  deriving DecidableEq, Repr

structure LineRange where
  first : Nat
  last : Nat
  deriving DecidableEq, Repr

namespace LineRange

def contains (r : LineRange) (line : Nat) : Bool := decide (r.first ≤ line) && decide (line ≤ r.last)

def lineCount (r : LineRange) : Nat := r.last - r.first + 1

end LineRange

inductive Warning where
  | malformedBody (line : Nat) (message : String)
  | invalidNumber (key value : String) (line : Nat)
  deriving DecidableEq, Repr

namespace Warning

def line : Warning → Nat
  | .malformedBody line _ => line
  | .invalidNumber _ _ line => line

def message : Warning → String
  | .malformedBody line message =>
      "malformed JSON body starting at line " ++ toString (line + 1) ++ ": " ++ message
  | .invalidNumber key value line =>
      "invalid integer '" ++ value ++ "' for '" ++ key ++ "' at line " ++ toString (line + 1)

end Warning

structure Command where
  kind : Kind
  target : String
  profile : String
  region : String
  body : Option Json
  attributes : Option Json
  maxMessages : Option UInt32
  visibilityTimeout : Option UInt32
  waitTime : Option UInt32
  range : LineRange
  bodyRange : Option LineRange
  parameters : List Parameter
  warnings : List Warning

namespace Command

def title (c : Command) : String := c.kind.keyword ++ " " ++ c.target

def hasWarnings (c : Command) : Bool := !c.warnings.isEmpty

end Command

end QueueScript
