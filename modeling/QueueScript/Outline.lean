import QueueScript.Command.Data

namespace QueueScript.Outline

structure Lens where
  line : Nat
  title : String
  command : Nat
  deriving DecidableEq, Repr

inductive SymbolKind where
  | command
  | parameter
  | body
  | field
  deriving DecidableEq, Repr

def SymbolKind.name : SymbolKind → String
  | .command => "Command"
  | .parameter => "Parameter"
  | .body => "Body"
  | .field => "Field"

inductive Symbol where
  | node (name : String) (detail : Option String) (kind : SymbolKind) (range : LineRange)
      (children : List Symbol)

namespace Symbol

def name : Symbol → String
  | .node name _ _ _ _ => name

def detail : Symbol → Option String
  | .node _ detail _ _ _ => detail

def kind : Symbol → SymbolKind
  | .node _ _ kind _ _ => kind

def range : Symbol → LineRange
  | .node _ _ _ range _ => range

def children : Symbol → List Symbol
  | .node _ _ _ _ children => children

end Symbol

def lenses (commands : List Command) : List Lens :=
  commands.zipIdx.map (fun (c, i) => ⟨c.range.first, "Run " ++ c.kind.keyword, i⟩)

def parameterSymbol (p : Parameter) : Symbol :=
  .node p.key.name (some p.value) .parameter ⟨p.line, p.line⟩ []

def fieldSymbol (range : LineRange) (name : String) (v : Json) : Symbol :=
  .node name (some v.typeName) .field range []

def fieldSymbols (range : LineRange) : Json → List Symbol
  | .object members => members.map (fun (name, v) => fieldSymbol range name v)
  | .array items =>
      items.zipIdx.map (fun (v, i) => fieldSymbol range ("[" ++ toString i ++ "]") v)
  | _ => []

def bodySymbol? (c : Command) : Option Symbol := do
  let body ← c.body
  let range ← c.bodyRange
  return .node "body" none .body range (fieldSymbols range body)

def commandSymbol (c : Command) : Symbol :=
  .node c.title (some (c.profile ++ " / " ++ c.region)) .command c.range
    (c.parameters.map parameterSymbol ++ (bodySymbol? c).toList)

def symbols (commands : List Command) : List Symbol := commands.map commandSymbol

def Lens.toJson (l : Lens) : Json :=
  .object [("line", .ofNat l.line), ("title", .string l.title), ("command_index", .ofNat l.command)]

mutual

def Symbol.toJson : Symbol → Json
  | .node name detail kind range children =>
      .object <|
        [("name", .string name), ("detail", .ofOption .string detail),
          ("kind", .string kind.name), ("range", range.toJson)] ++
        listMember "children" (Symbol.listToJson children)

def Symbol.listToJson : List Symbol → List Json
  | [] => []
  | s :: rest => s.toJson :: Symbol.listToJson rest

end

end QueueScript.Outline
