import CssColor.Proofs.Outcome
import CssColor.Service
import Mathlib.Data.List.Basic

/-!
# Replies that can be sent

A reply is sent as text, and a text with a lone surrogate cannot be, nor can a number that is not
finite. Both may come in with the body of a request. They come back with the issues of a body, which
are reported together with the values that have them, and in the answers that hold texts of the
client.

## Main definitions

* `Service.Admits`: the fields of a body pass the checks and make a request.

## Main results

* `Json.isSendable_part`: all parts of a value that can be sent can be sent.
* `Service.Reply.isSendable_unprocessable_iff`: issues can be sent if their values can.
* `Service.withBody_cases`: a body is answered with its issues, or the request that it makes is.
-/

namespace CssColor

/-! ## Values -/

namespace Json

/-- A list of items can be sent when each of them can. -/
theorem itemsSendable_iff {items : List Json} :
    itemsSendable items = true ↔ ∀ item ∈ items, item.isSendable = true := by
  induction items with
  | nil => simp [itemsSendable]
  | cons item rest ih => simp [itemsSendable, ih]

/-- A list of fields can be sent when the name and the value of each of them can. -/
theorem fieldsSendable_iff {fields : List (RawText × Json)} :
    fieldsSendable fields = true ↔
      ∀ field ∈ fields, field.1.isUnicode = true ∧ field.2.isSendable = true := by
  induction fields with
  | nil => simp [fieldsSendable]
  | cons field rest ih => simp [fieldsSendable, ih, and_assoc]

/-- The value of a field can be sent when the object can. -/
theorem isSendable_of_field? {fields : List (RawText × Json)} {name : String} {value : Json}
    (h : fieldsSendable fields = true) (hvalue : field? fields name = some value) :
    value.isSendable = true := by
  obtain ⟨before, after, rfl, -⟩ := List.lookup_eq_some_iff.mp hvalue
  exact (fieldsSendable_iff.mp h (RawText.ofString name, value) (by simp)).2

/-- Every part of a value that can be sent can be sent. -/
theorem isSendable_part {value : Json} (h : value.isSendable = true) (path : List PathStep) :
    (value.part path).isSendable = true := by
  induction path generalizing value with
  | nil => simpa [part] using h
  | cons step rest ih =>
    -- a step that does not fit the kind of the value leads to `null`
    cases step with
    | field name =>
      cases value with
      | object fields =>
        rw [part]
        cases hvalue : field? fields name with
        | none => rfl
        | some value => exact ih (isSendable_of_field? h hvalue)
      | _ => rfl
    | item index =>
      cases value with
      | array items =>
        rw [part]
        cases hitem : items[index]? with
        | none => rfl
        | some item => exact ih (itemsSendable_iff.mp h item (List.mem_of_getElem? hitem))
      | _ => rfl

end Json

/-! ## Replies -/

namespace Service

namespace Reply

/-- A reply keeps its status when it can be sent. -/
theorem status_send (reply : Reply) :
    reply.send.status = if reply.body.isSendable then reply.status else 500 := by
  rw [send]
  split_ifs <;> rfl

/-- A reply that is not sent as it is fails. -/
theorem send_eq_self {reply : Reply} (h : reply.send.status ≠ 500) : reply.send = reply := by
  rw [status_send] at h
  by_cases hsendable : reply.body.isSendable = true
  · rw [send, if_pos hsendable]
  · rw [if_neg hsendable] at h
    exact absurd rfl h

/-- A refusal can be sent when its reason can. -/
@[simp] theorem isSendable_refused (status : Nat) (reason : RawText) :
    (refused status reason).body.isSendable = reason.isUnicode := by
  simp [refused, Json.isSendable, Json.fieldsSendable]

/-- What an issue tells can be sent. -/
theorem fieldsSendable_issueFields (issue : Issue) :
    Json.fieldsSendable (issueFields issue) = true := by
  have hpath : Json.itemsSendable (issue.path.map ofPathStep) = true := by
    rw [Json.itemsSendable_iff]
    intro item hitem
    obtain ⟨step, -, rfl⟩ := List.mem_map.mp hitem
    cases step <;> simp [ofPathStep, Json.isSendable]
  simp [issueFields, Json.fieldsSendable, Json.isSendable, hpath]

/-- The issues of a body can be sent when the values that have them can. -/
theorem isSendable_unprocessable_iff {body : Json} {issues : List Issue} :
    (unprocessable body issues).body.isSendable = true ↔
      ∀ issue ∈ issues, (issue.input body).isSendable = true := by
  have hissue : ∀ issue : Issue,
      (ofIssue body issue).isSendable = (issue.input body).isSendable := by
    intro issue
    simp [ofIssue, Json.isSendable, Json.fieldsSendable, fieldsSendable_issueFields]
  simp [unprocessable, Json.isSendable, Json.fieldsSendable, Json.itemsSendable_iff, hissue]

end Reply

/-! ## Answers -/

/-- Texts are posted to be converted. -/
theorem handle_convertColor (body : Option Json) : handle "POST" "/convert_color_code" body =
    (withBody ConvertRequest.ofFields convertColor body).send := rfl

/-- Documents are posted to be scanned. -/
theorem handle_scanColors (body : Option Json) : handle "POST" "/scan_colors" body =
    (withBody ScanRequest.ofFields scanColors body).send := rfl

/-- Tokens are posted to be rendered. -/
theorem handle_renderColor (body : Option Json) : handle "POST" "/render_color" body =
    (withBody RenderRequest.ofFields renderColor body).send := rfl

/-- Documents are posted to be recolored. -/
theorem handle_recolor (body : Option Json) : handle "POST" "/recolor" body =
    (withBody RecolorRequest.ofFields recolor body).send := rfl

/-- The converted text is sent, and so is the refusal of a text that is no color. -/
theorem send_convertColor {request : ConvertRequest} {outcome : Option String}
    (h : convert request.code.shown request.target = .ok outcome) :
    (convertColor request).send =
      match outcome with
      | some text => .ok [("success", .bool true), ("message", .string text)]
      | none => .refused 400 "Invalid CSS color" := by
  unfold convertColor
  cases outcome with
  | none =>
    simp only [h]
    exact if_pos (by simp)
  | some text =>
    simp only [h]
    exact if_pos (by simp [Reply.ok, Json.isSendable, Json.fieldsSendable])

/-- The text that is written in place of a token is sent, unless it holds a lone surrogate. -/
theorem send_renderColor {request : RenderRequest} {written : RawText}
    (h : request.token.render request.color = .ok written) :
    (renderColor request).send =
      if written.isUnicode then
        .ok [("text", .string written), ("source_from", .integer request.token.start),
          ("source_to", .integer request.token.stop)]
      else .failed := by
  simp [renderColor, h, Reply.send, Reply.ok, Json.isSendable, Json.fieldsSendable]

/-- The document with a new color is sent, unless it holds a lone surrogate or the token ends
outside of the old one. -/
theorem send_recolor {request : RecolorRequest} {edited : RawText}
    (h : request.token.recolor request.document request.color = .ok edited) :
    (recolor request).send =
      if request.token.stop ≤ request.document.length then
        if edited.isUnicode then .ok [("document", .string edited)] else .failed
      else .refused 400 "Token span lies outside the document" := by
  by_cases hinside : request.token.stop ≤ request.document.length
  · rw [recolor, if_neg (Int.not_lt.mpr hinside), if_pos hinside]
    simp [h, Reply.send, Reply.ok, Json.isSendable, Json.fieldsSendable]
  · rw [recolor, if_pos (Int.not_le.mp hinside), if_neg hinside, Reply.send]
    exact if_pos (by simp)

/-! ## Bodies -/

section WithBody

variable {α : Type} {check : List (RawText × Json) → Checked α} {answer : α → Reply}

/-- The body is an object whose fields pass the checks and make the given request. -/
def Admits (check : List (RawText × Json) → Checked α) (body : Option Json) (request : α) : Prop :=
  ∃ fields, body = some (.object fields) ∧ check fields = .valid request

/-- The checks of a body pass on objects only. -/
theorem checkBody_eq_valid_iff {body : Option Json} {request : α} :
    checkBody check body = .valid request ↔ Admits check body request := by
  constructor
  · intro h
    cases body with
    | none => simp [checkBody, Checked.fault] at h
    | some value =>
      cases value with
      | object fields => exact ⟨fields, rfl, h⟩
      | _ => simp [checkBody, Decode.object, Checked.fault] at h
  · rintro ⟨fields, rfl, hcheck⟩
    exact hcheck

/-- A body that does not pass the checks is answered with its issues. The request that any other
body makes is answered. -/
theorem withBody_cases (check : List (RawText × Json) → Checked α) (answer : α → Reply)
    (body : Option Json) :
    (∃ issues, checkBody check body = .invalid issues ∧
        withBody check answer body = .unprocessable (body.getD .null) issues) ∨
      ∃ request, Admits check body request ∧ withBody check answer body = answer request := by
  cases hcheck : checkBody check body with
  | valid request =>
    exact .inr ⟨request, checkBody_eq_valid_iff.mp hcheck, by rw [withBody, hcheck]⟩
  | invalid issues => exact .inl ⟨issues, rfl, by rw [withBody, hcheck]⟩

/-- Unless the body has issues, the request that it makes is answered. -/
theorem exists_request_of_status {body : Option Json}
    (h : (withBody check answer body).status ≠ 422) :
    ∃ request, Admits check body request ∧ withBody check answer body = answer request := by
  rcases withBody_cases check answer body with ⟨issues, -, hreply⟩ | hanswered
  · rw [hreply] at h
    exact absurd rfl h
  · exact hanswered

/-- A body that passes the checks makes its request. -/
theorem withBody_of_valid {fields : List (RawText × Json)} {request : α}
    (h : check fields = .valid request) :
    withBody check answer (some (.object fields)) = answer request := by
  rw [withBody, checkBody_eq_valid_iff.mpr ⟨fields, rfl, h⟩]

end WithBody

end Service

/-! ## Fields -/

namespace Decode

variable {α : Type} {fields : List (RawText × Json)} {name : String} {check : Json → Checked α}

/-- A field is valid when it is there and its value passes the check. -/
theorem required_eq_valid_iff {a : α} :
    required fields name check = .valid a ↔
      ∃ value, Json.field? fields name = some value ∧ check value = .valid a := by
  cases hlookup : Json.field? fields name with
  | none => simp [required, hlookup, Checked.fault, Checked.below]
  | some value => simp [required, hlookup, Checked.below_eq_valid_iff]

/-- A field with a default is valid when it is not there or its value passes the check. -/
theorem optional_eq_valid_iff {fallback a : α} :
    optional fields name fallback check = .valid a ↔
      (Json.field? fields name = none ∧ fallback = a) ∨
        ∃ value, Json.field? fields name = some value ∧ check value = .valid a := by
  cases hlookup : Json.field? fields name with
  | none => simp [optional, hlookup]
  | some value => simp [optional, hlookup, Checked.below_eq_valid_iff]

/-- Only texts are valid texts. -/
theorem string_eq_valid_iff {value : Json} {text : RawText} :
    string value = .valid text ↔ value = .string text := by
  cases value <;> simp [string, Checked.fault]

/-- The text in a field of an object that can be sent holds no lone surrogate. -/
theorem isUnicode_of_required {text : RawText} (h : Json.fieldsSendable fields = true)
    (htext : required fields name string = .valid text) : text.isUnicode = true := by
  obtain ⟨value, hvalue, hstring⟩ := required_eq_valid_iff.mp htext
  have hsendable := Json.isSendable_of_field? h hvalue
  rwa [string_eq_valid_iff.mp hstring] at hsendable

/-- The text in a field of an object that can be sent holds no lone surrogate, also when the field
is not there. -/
theorem isUnicode_of_optional {text : RawText} (h : Json.fieldsSendable fields = true)
    (htext : optional fields name [] string = .valid text) : text.isUnicode = true := by
  rcases optional_eq_valid_iff.mp htext with ⟨-, rfl⟩ | hpresent
  · rfl
  · exact isUnicode_of_required h (required_eq_valid_iff.mpr hpresent)

/-- Only texts without lone surrogates pass as such. -/
theorem unicode_eq_valid_iff {text : RawText} {plain : String} :
    unicode text = .valid plain ↔ text = plain := by
  rw [← RawText.toString?_eq_some_iff, unicode]
  cases text.toString? with
  | none => simp [Checked.fault]
  | some found => simp

/-- A valid color is a text of six digits. -/
theorem color_eq_valid_iff {value : Json} {color : String} :
    Decode.color value = .valid color ↔
      value = .string color ∧ isColor color.toList = true := by
  simp only [Decode.color, colorText, Checked.andThen_eq_valid_iff, string_eq_valid_iff,
    unicode_eq_valid_iff, Checked.ite_fault_eq_valid_iff]
  constructor
  · rintro ⟨text, ⟨raw, hvalue, rfl⟩, hcolor, rfl⟩
    exact ⟨hvalue, hcolor⟩
  · rintro ⟨hvalue, hcolor⟩
    exact ⟨color, ⟨color, hvalue, rfl⟩, hcolor, rfl⟩

end Decode

end CssColor
