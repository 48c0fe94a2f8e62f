import CssColor.Conversion
import CssColor.Scan
import CssColor.SyntaxTree.Decode

/-!
# Service

The requests that the server answers. The body of a request is checked as a whole before anything is
computed; a body with issues is answered with all of them, and with the values that have them.

Texts of a body may hold lone surrogates, and these may come back in an answer. Such an answer
cannot be sent, and the request fails in its place.
-/

namespace CssColor

/-- The part of a value that a path leads to, `null` where it leads nowhere. -/
def Json.part : List PathStep → Json → Json
  | [], value => value
  | .field name :: rest, .object fields =>
    match field? fields name with
    | some value => value.part rest
    | none => .null
  | .item index :: rest, .array items =>
    match items[index]? with
    | some item => item.part rest
    | none => .null
  | _, _ => .null

/-- The value in a body that has an issue. For a missing field this is the object that lacks it. -/
def Issue.input (issue : Issue) (body : Json) : Json :=
  body.part (if issue.fault = .missing then issue.path.dropLast else issue.path)

namespace Service

/-- An answer to a request: a status code and a body. -/
structure Reply where
  /-- The status code. -/
  status : Nat
  /-- The body. -/
  body : Json

namespace Reply

/-- The answer to a request that succeeds. -/
def ok (fields : List (RawText × Json)) : Reply := ⟨200, .object fields⟩

/-- The answer to a request that is refused, with the reason. -/
def refused (status : Nat) (reason : RawText) : Reply :=
  ⟨status, .object [("detail", .string reason)]⟩

/-- A step of a path as a JSON value. -/
def ofPathStep : PathStep → Json
  | .field name => .string name
  | .item index => .integer index

/-- What an issue tells, as the fields of an object. -/
def issueFields (issue : Issue) : List (RawText × Json) := [
  ("type", .string issue.fault.code),
  ("loc", .array (issue.path.map ofPathStep)),
  ("msg", .string issue.fault.message)]

/-- An issue of a body as a JSON value, with the value that has it. -/
def ofIssue (body : Json) (issue : Issue) : Json :=
  .object (("input", issue.input body) ::
    issueFields { issue with path := .field "body" :: issue.path })

/-- The answer to a request whose body has issues. -/
def unprocessable (body : Json) (issues : List Issue) : Reply :=
  ⟨422, .object [("detail", .array (issues.map (ofIssue body)))]⟩

/-- The answer to a request that fails for a reason that is not the client's. -/
def failed : Reply := ⟨500, .string "Internal Server Error"⟩

/-- The reply that is sent. When its body cannot be, the request fails. -/
def send (reply : Reply) : Reply := if reply.body.isSendable then reply else failed

end Reply

/-- A request to convert one color text. -/
structure ConvertRequest where
  /-- The text of the color. -/
  code : RawText
  /-- How to write the color. -/
  target : Notation
  deriving DecidableEq, Repr

/-- A request to find the colors of a document. -/
structure ScanRequest where
  /-- The text of the document. -/
  document : RawText
  /-- The syntax tree of the document. -/
  tree : SyntaxTree
  /-- Where to look, the whole document when absent. -/
  ranges : Option (List Extent)

/-- A request to write a color in place of a token. -/
structure RenderRequest where
  /-- The token. -/
  token : RawToken
  /-- The new color. -/
  color : String
  deriving DecidableEq, Repr

/-- A request to replace a token of a document by a color. -/
structure RecolorRequest extends RenderRequest where
  /-- The text of the document. -/
  document : RawText
  deriving DecidableEq, Repr

/-- A range that does not end before it starts. -/
def decodeRange : Json → Checked Extent :=
  Decode.object .notObject fun fields =>
    let range (start stop : Nat) : Extent := ⟨start, stop⟩
    (range <$> Decode.required fields "start" Decode.offset
      <*> Decode.required fields "end" Decode.offset).andThen
        fun found => if found.stop < found.start then .fault .reversedRange else .valid found

/-- The ranges of a request, which may be `null`. -/
def decodeRanges : Json → Checked (Option (List Extent))
  | .null => .valid none
  | value => some <$> Decode.list decodeRange value

/-- The conversion that the fields of a body ask for. -/
def ConvertRequest.ofFields (fields : List (RawText × Json)) : Checked ConvertRequest :=
  ConvertRequest.mk <$> Decode.required fields "code" Decode.string
    <*> Decode.required fields "target" (RawToken.decodeNotation .unknownTarget)

/-- The scan that the fields of a body ask for. -/
def ScanRequest.ofFields (fields : List (RawText × Json)) : Checked ScanRequest :=
  ScanRequest.mk <$> Decode.required fields "document" Decode.string
    <*> Decode.required fields "tree" (SyntaxTree.ofJson .request)
    <*> Decode.optional fields "ranges" none decodeRanges

/-- The rendering that the fields of a body ask for. -/
def RenderRequest.ofFields (fields : List (RawText × Json)) : Checked RenderRequest :=
  RenderRequest.mk <$> Decode.required fields "token" (RawToken.ofJson .request)
    <*> Decode.required fields "color" Decode.color

/-- The replacement that the fields of a body ask for. -/
def RecolorRequest.ofFields (fields : List (RawText × Json)) : Checked RecolorRequest :=
  RecolorRequest.mk <$> RenderRequest.ofFields fields
    <*> Decode.required fields "document" Decode.string

/-- The converted text, or a refusal when the text is no color. -/
def convertColor (request : ConvertRequest) : Reply :=
  match convert request.code.shown request.target with
  | .ok (some text) => .ok [("success", .bool true), ("message", .string text)]
  | .ok none => .refused 400 "Invalid CSS color"
  | .error _ => .failed

/-- The tokens of the requested ranges, or of the whole document. -/
def ScanRequest.tokens (request : ScanRequest) : Except Error (List Token) :=
  match request.ranges with
  | none => Scan.tokens request.document.shown request.tree none
  | some ranges => Scan.extents request.document.shown request.tree ranges

/-- The tokens that were found. A misplaced overlay is refused with its position. -/
def scanColors (request : ScanRequest) : Reply :=
  match request.tokens with
  | .ok tokens => .ok [("tokens", .array (tokens.map Token.toJson))]
  | .error cause =>
    match cause.message? with
    | some reason => .refused 400 reason
    | none => .failed

/-- The text that writes the color in place of the token, with the span of the token. -/
def renderColor (request : RenderRequest) : Reply :=
  match request.token.render request.color with
  | .ok text =>
    .ok [
      ("text", .string text),
      ("source_from", .integer request.token.start),
      ("source_to", .integer request.token.stop)]
  | .error _ => .failed

/-- The document with the color in place of the token, which must end inside the document. -/
def recolor (request : RecolorRequest) : Reply :=
  if request.document.length < request.token.stop then
    .refused 400 "Token span lies outside the document"
  else match request.token.recolor request.document request.color with
    | .ok document => .ok [("document", .string document)]
    | .error _ => .failed

/-- What the checks make of a body. -/
def checkBody {α : Type} (check : List (RawText × Json) → Checked α) : Option Json → Checked α
  | none => .fault .missing
  | some .null => .fault .missing
  | some value => Decode.object .notObject check value

/-- The answer to a request with a checked body. -/
def withBody {α : Type} (check : List (RawText × Json) → Checked α) (answer : α → Reply)
    (body : Option Json) : Reply :=
  match checkBody check body with
  | .valid request => answer request
  | .invalid issues => .unprocessable (body.getD .null) issues

/-- What the server offers. -/
inductive Endpoint where
  /-- Tells that the server is up. -/
  | health
  /-- Converts one color text. -/
  | convertColor
  /-- Finds the colors of a document. -/
  | scanColors
  /-- Writes a color in place of a token. -/
  | renderColor
  /-- Replaces a token of a document by a color. -/
  | recolor
  deriving DecidableEq, Repr

namespace Endpoint

/-- The endpoint at a path. -/
def ofPath? : String → Option Endpoint
  | "/health" => some health
  | "/convert_color_code" => some convertColor
  | "/scan_colors" => some scanColors
  | "/render_color" => some renderColor
  | "/recolor" => some recolor
  | _ => none

/-- The method of the requests that an endpoint answers. -/
def method : Endpoint → String
  | health => "GET"
  | convertColor => "POST"
  | scanColors => "POST"
  | renderColor => "POST"
  | recolor => "POST"

/-- The answer of an endpoint to a body. -/
def answer (body : Option Json) : Endpoint → Reply
  | health => .ok [("status", .string "healthy")]
  | convertColor => withBody ConvertRequest.ofFields Service.convertColor body
  | scanColors => withBody ScanRequest.ofFields Service.scanColors body
  | renderColor => withBody RenderRequest.ofFields Service.renderColor body
  | recolor => withBody RecolorRequest.ofFields Service.recolor body

end Endpoint

/-- The answer to a request, whether it can be sent or not. -/
def answer (method path : String) (body : Option Json) : Reply :=
  match Endpoint.ofPath? path with
  | none => .refused 404 "Not Found"
  | some endpoint =>
    if method = endpoint.method then endpoint.answer body
    else .refused 405 "Method Not Allowed"

/-- The reply to a request. -/
def handle (method path : String) (body : Option Json) : Reply := (answer method path body).send

end Service

end CssColor
