import BasicLang.Editor.Finding
import BasicLang.Text.Quoted

set_option autoImplicit false

namespace BasicLang

namespace Uri

def isSchemeChar (char : Char) : Bool :=
  char.isAlphanum || char == '+' || char == '-' || char == '.'

def isReserved (char : Char) : Bool := [' ', '"', '<', '>', '`', '\x7b', '\x7d'].contains char

def escapeByte (byte : UInt8) : String :=
  "%" ++ (if byte.toNat < 16 then "0" else "") ++ (Text.hexDigits byte.toNat).toUpper

def escapeChar (hierarchical : Bool) (char : Char) : String :=
  if char.toNat < 0x20 ∨ 0x7f ≤ char.toNat ∨ (hierarchical ∧ isReserved char) then
    String.join (char.toString.toUTF8.toList.map escapeByte)
  else char.toString

/-- A name with its scheme in lower case and its characters escaped; nothing without a scheme. -/
def normalize? (text : String) : Option String :=
  let chars := text.toList
  let scheme := chars.takeWhile isSchemeChar
  match scheme, chars.drop scheme.length with
  | first :: _, ':' :: rest =>
    if first.isAlpha then
      let hierarchical := rest.head? == some '/'
      let lower := (String.ofList scheme).toLower
      some (lower ++ ":" ++ String.join (rest.map (escapeChar hierarchical)))
    else none
  | _, _ => none

end Uri

structure EditorMessage where
  id : Option Json
  method : String
  params : Option Json

structure Exchange where
  reply : Option Json
  sent : List Json

inductive ServerPhase where
  | fresh
  | ready
  | shutDown
  | exited
deriving Repr, DecidableEq

inductive RequestError where
  | notInitialized
  | invalid
  | unknownMethod (name : String)
  | unavailable
  | badParams (message : String)
deriving Repr, DecidableEq

namespace RequestError

def code : RequestError → Int
  | .notInitialized => -32002
  | .invalid => -32600
  | .unknownMethod _ => -32601
  | .unavailable => -32601
  | .badParams _ => -32602

def message : RequestError → String
  | .notInitialized => "Server not initialized"
  | .invalid => "Invalid request"
  | .unknownMethod _ => "Method not found"
  | .unavailable => "Method not found"
  | .badParams message => message

def json (error : RequestError) : Json :=
  let common := [("code", Json.integer error.code), ("message", Json.text error.message)]
  match error with
  | .unknownMethod name => .ofFields (("data", .text name) :: common)
  | _ => .ofFields common

end RequestError

namespace Server

def envelope (fields : List (String × Json)) : Json :=
  .ofFields (("jsonrpc", .text "2.0") :: fields)

def notification (method : String) (params : Json) : Json :=
  envelope [("method", .text method), ("params", params)]

def published (uri : String) (version : Option Int) (findings : List Finding) : Json :=
  let versions := (version.map fun version => ("version", Json.integer version)).toList
  notification "textDocument/publishDiagnostics"
    (.ofFields
      ([("diagnostics", .ofItems (findings.map Finding.json)), ("uri", .text uri)] ++ versions))

def response (id : Json) : Except RequestError Json → Json
  | .ok result => envelope [("id", id), ("result", result)]
  | .error error => envelope [("id", id), ("error", error.json)]

def capabilities : Json :=
  .ofFields
    [("capabilities", .ofFields [("textDocumentSync", .integer 1)]),
      ("serverInfo", .ofFields [("name", .text "qbvm-lsp"), ("version", .text "0.1.0")])]

def notificationMethods : List String :=
  ["initialized", "textDocument/didOpen", "textDocument/didChange", "textDocument/didClose",
    "textDocument/willSave", "textDocument/didSave", "workspace/didChangeConfiguration",
    "workspace/didChangeWorkspaceFolders", "workspace/didCreateFiles", "workspace/didRenameFiles",
    "workspace/didDeleteFiles", "workspace/didChangeWatchedFiles"]

def unavailableMethods : List String :=
  ["textDocument/willSaveWaitUntil", "textDocument/declaration", "textDocument/definition",
    "textDocument/typeDefinition", "textDocument/implementation", "textDocument/references",
    "textDocument/prepareCallHierarchy", "callHierarchy/incomingCalls",
    "callHierarchy/outgoingCalls", "textDocument/prepareTypeHierarchy", "typeHierarchy/supertypes",
    "typeHierarchy/subtypes", "textDocument/documentHighlight", "textDocument/documentLink",
    "documentLink/resolve", "textDocument/hover", "textDocument/codeLens", "codeLens/resolve",
    "textDocument/foldingRange", "textDocument/selectionRange", "textDocument/documentSymbol",
    "textDocument/semanticTokens/full", "textDocument/semanticTokens/full/delta",
    "textDocument/semanticTokens/range", "textDocument/inlineValue", "textDocument/inlayHint",
    "inlayHint/resolve", "textDocument/moniker", "textDocument/completion",
    "completionItem/resolve", "textDocument/diagnostic", "workspace/diagnostic",
    "textDocument/signatureHelp", "textDocument/codeAction", "codeAction/resolve",
    "textDocument/documentColor", "textDocument/colorPresentation", "textDocument/formatting",
    "textDocument/rangeFormatting", "textDocument/onTypeFormatting", "textDocument/rename",
    "textDocument/prepareRename", "textDocument/linkedEditingRange", "workspace/symbol",
    "workspaceSymbol/resolve", "workspace/willCreateFiles", "workspace/willRenameFiles",
    "workspace/willDeleteFiles", "workspace/executeCommand"]

/-- What a notification makes the server send. One whose parameters are not understood is
ignored. -/
def notified (method : String) (params : Json) : List Json :=
  let document := params.field? "textDocument"
  let uri := document.bind fun document =>
    ((document.field? "uri").bind Json.text?).bind Uri.normalize?
  let version := document.bind fun document => (document.field? "version").bind Json.int?
  match method, uri with
  | "initialized", _ =>
    [notification "window/logMessage"
      (.ofFields [("type", .integer 3), ("message", .text "qbvm LSP server initialized")])]
  | "textDocument/didOpen", some uri =>
    match version, document.bind fun document => (document.field? "text").bind Json.text? with
    | some version, some text => [published uri (some version) (Finding.all text)]
    | _, _ => []
  | "textDocument/didChange", some uri =>
    let changes := ((params.field? "contentChanges").bind Json.items?).getD []
    match version, changes.getLast?.bind fun change => (change.field? "text").bind Json.text? with
    | some version, some text => [published uri (some version) (Finding.all text)]
    | _, _ => []
  | "textDocument/didClose", some uri => [published uri none []]
  | _, _ => []

def opening (params : Option Json) : Except RequestError Json :=
  match params with
  | none => .error (.badParams "Missing params field")
  | some params =>
    match params.field? "capabilities" with
    | some _ => .ok capabilities
    | none => .error (.badParams "missing field `capabilities`")

def answer (message : EditorMessage) (result : Except RequestError Json) : Exchange :=
  { reply := message.id.map fun id => response id result, sent := [] }

def silence : Exchange := { reply := none, sent := [] }

def outOfSession : ServerPhase → RequestError
  | .fresh => .notInitialized
  | _ => .invalid

/-- What the server does with a message. A session lasts from a successful `initialize` to
`shutdown`. -/
def receive (phase : ServerPhase) (message : EditorMessage) : Exchange × ServerPhase :=
  let isRequest := message.id.isSome
  if phase = .exited then (silence, phase)
  else if message.method = "exit" then (silence, .exited)
  else if message.method = "initialize" then
    if phase ≠ .fresh then (answer message (.error .invalid), phase)
    else
      match opening message.params with
      | .ok result => (answer message (.ok result), if isRequest then .ready else phase)
      | .error error => (answer message (.error error), phase)
  else if message.method = "shutdown" then
    if phase ≠ .ready then (answer message (.error (outOfSession phase)), phase)
    else
      match message.params with
      | none => (answer message (.ok .null), .shutDown)
      | some params =>
        (answer message (.error (.badParams ("Unexpected params: " ++ params.render))), .shutDown)
  else if notificationMethods.contains message.method then
    if phase ≠ .ready then (answer message (.error (outOfSession phase)), phase)
    else
      match message.params with
      | some params =>
        if isRequest then (silence, phase)
        else ({ reply := none, sent := notified message.method params }, phase)
      | none => (silence, phase)
  else if unavailableMethods.contains message.method then
    if phase ≠ .ready then (answer message (.error (outOfSession phase)), phase)
    else if message.params.isNone then
      (answer message (.error (.badParams "Missing params field")), phase)
    else (answer message (.error .unavailable), phase)
  else if message.method.startsWith "$/" then (silence, phase)
  else (answer message (.error (.unknownMethod message.method)), phase)

def session : ServerPhase → List EditorMessage → List Exchange
  | _, [] => []
  | phase, message :: rest =>
    let (exchange, after) := receive phase message
    exchange :: session after rest

end Server

end BasicLang
