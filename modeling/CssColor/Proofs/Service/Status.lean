import CssColor.Proofs.Conversion
import CssColor.Proofs.Recognition.Raw
import CssColor.Proofs.Rendering.Raw
import CssColor.Proofs.Service.Sending

/-!
# When requests fail

Converting, rendering and recoloring are computations that no body brings to fail. A body that does
not pass its checks is refused before anything is computed. After that nothing is left to fail:
every text is converted to every notation, and every checked color is written in place of every
token.

What may fail is to send the answer. The texts of a token and of a document come back in it, and so
does every value that has an issue, with the lone surrogates and infinite numbers that the client
has sent. A body without them is never answered with an internal error.

## Main definitions

* `Service.Answered`: a body is refused with its issues, or the request that it makes is answered.
* `Service.Converted`, `Service.Rendered`, `Service.Recolored`: how requests are answered.

## Main results

* `Service.isColor_of_valid`: the color of a request that passed its checks has six digits.
* `Service.status_of_post`: the answers to all bodies that are posted.
* `Service.not_answered_lone_surrogate`: a body that is answered with an internal error.
-/

namespace CssColor

/-- The texts of a token that is sent in an object that can be sent itself can be written. -/
theorem RawToken.isWritable_of_valid {fields : List (RawText × Json)} {token : RawToken}
    (hfields : Json.fieldsSendable fields = true) (h : ofFields fields = .valid token) :
    token.IsWritable := by
  simp only [ofFields, Checked.andThen_eq_valid_iff, Checked.seq_eq_valid_iff,
    Checked.map_eq_valid_iff, Token.checkSpan, Checked.ite_fault_eq_valid_iff] at h
  obtain ⟨_, ⟨_, separator, ⟨_, function, ⟨_, alpha, ⟨_, color, ⟨_, kind, ⟨_, stop, ⟨start, -, rfl⟩,
    -, rfl⟩, -, rfl⟩, -, rfl⟩, halpha, rfl⟩, hfunction, rfl⟩, hseparator, rfl⟩, -, rfl⟩ := h
  exact ⟨fun _ => Decode.isUnicode_of_optional hfields halpha, fun _ =>
    ⟨Decode.isUnicode_of_optional hfields hfunction,
      Decode.isUnicode_of_optional hfields hseparator⟩⟩

/-- Nothing stays of a document that was not there. -/
theorem RawToken.isUnicode_surroundings_of_isUnicode {document : RawText}
    (h : document.isUnicode = true) (token : RawToken) :
    (token.surroundings document).isUnicode = true := by
  have hall : ∀ point ∈ document, point.isChar = true := List.all_eq_true.mp h
  rw [surroundings, RawText.isUnicode_append, Bool.and_eq_true, RawText.isUnicode,
    RawText.isUnicode, List.all_eq_true, List.all_eq_true]
  exact ⟨fun point hpoint => hall point (List.mem_of_mem_take hpoint),
    fun point hpoint => hall point (List.mem_of_mem_drop hpoint)⟩

namespace Service

section Answered

variable {α : Type} {check : List (RawText × Json) → Checked α} {outcome : α → Nat → Prop}

/-- A body that does not pass its checks is refused with 422. This fails if a value that has an
issue cannot be sent back. Any other body makes a request, and the outcome fits the request and the
status. -/
def Answered (check : List (RawText × Json) → Checked α) (outcome : α → Nat → Prop)
    (body : Option Json) (reply : Reply) : Prop :=
  (∃ issues, checkBody check body = .invalid issues ∧ reply.status =
      if issues.all fun issue => (issue.input (body.getD .null)).isSendable then 422 else 500) ∨
    ∃ request, Admits check body request ∧ outcome request reply.status

/-- An answer has to deal only with requests that passed their checks. -/
theorem answered_withBody {answer : α → Reply} (body : Option Json)
    (h : ∀ fields request, check fields = .valid request →
      outcome request (answer request).send.status) :
    Answered check outcome body (withBody check answer body).send := by
  -- the answer is given only in the second case, where the request comes with its checks
  rcases withBody_cases check answer body with ⟨issues, hissues, hreply⟩ |
    ⟨request, ⟨fields, hbody, hcheck⟩, hreply⟩
  · refine .inl ⟨issues, hissues, ?_⟩
    have hsendable : (Reply.unprocessable (body.getD .null) issues).body.isSendable =
        issues.all fun issue => (issue.input (body.getD .null)).isSendable := by
      rw [Bool.eq_iff_iff, Reply.isSendable_unprocessable_iff, List.all_eq_true]
    rw [hreply, Reply.status_send, hsendable]
    rfl
  · refine .inr ⟨request, ⟨fields, hbody, hcheck⟩, ?_⟩
    rw [hreply]
    exact h fields request hcheck

/-- The issues of a body that can be sent can be sent back. When the requests of such bodies are
answered with 200 or 400, these and 422 are all the statuses. -/
theorem Answered.status_mem {body : Option Json} {reply : Reply}
    (h : Answered check outcome body reply) (hbody : ∀ value ∈ body, value.isSendable = true)
    (houtcome : ∀ fields request status, Json.fieldsSendable fields = true →
      check fields = .valid request → outcome request status → status = 200 ∨ status = 400) :
    reply.status ∈ [200, 400, 422] := by
  rcases h with ⟨issues, -, hstatus⟩ | ⟨request, ⟨fields, rfl, hcheck⟩, hrequest⟩
  -- what an issue is about is a part of the body, or the value that stands for a missing one
  · have hvalue : (body.getD .null).isSendable = true := by
      cases body with
      | none => rfl
      | some value => exact hbody value rfl
    have hinputs : (issues.all fun issue => (issue.input (body.getD .null)).isSendable) = true :=
      List.all_eq_true.mpr fun issue _ => Json.isSendable_part hvalue _
    simp [hstatus, hinputs]
  · have hfields : Json.fieldsSendable fields = true := hbody _ rfl
    rcases houtcome fields request reply.status hfields hcheck hrequest with hstatus | hstatus <;>
      simp [hstatus]

/-- A body with one of the other statuses made a request. -/
theorem Answered.exists_request {body : Option Json} {reply : Reply} {status : Nat}
    (h : Answered check outcome body reply) (hstatus : reply.status = status)
    (hne : status ≠ 422 ∧ status ≠ 500) :
    ∃ request, Admits check body request ∧ outcome request status := by
  subst hstatus
  rcases h with ⟨issues, -, hstatus⟩ | hanswered
  · split_ifs at hstatus
    · exact absurd hstatus hne.1
    · exact absurd hstatus hne.2
  · exact hanswered

end Answered

/-! ## What the checks ensure -/

/-- The parts of a request to render a color come from the fields of the body. -/
theorem fields_of_valid {fields : List (RawText × Json)} {request : RenderRequest}
    (h : RenderRequest.ofFields fields = .valid request) :
    Decode.required fields "token" (RawToken.ofJson .request) = .valid request.token ∧
      Decode.required fields "color" Decode.color = .valid request.color := by
  obtain ⟨_, color, hmap, hcolor, rfl⟩ := Checked.seq_eq_valid_iff.mp h
  obtain ⟨token, htoken, rfl⟩ := Checked.map_eq_valid_iff.mp hmap
  exact ⟨htoken, hcolor⟩

/-- The color of a request that passed its checks has six digits. -/
theorem isColor_of_valid {fields : List (RawText × Json)} {request : RenderRequest}
    (h : RenderRequest.ofFields fields = .valid request) :
    Decode.isColor request.color.toList = true := by
  obtain ⟨value, -, hvalue⟩ := Decode.required_eq_valid_iff.mp (fields_of_valid h).2
  exact (Decode.color_eq_valid_iff.mp hvalue).2

/-- The token of a request whose body can be sent can be written. -/
theorem isWritable_of_valid {fields : List (RawText × Json)} {request : RenderRequest}
    (hfields : Json.fieldsSendable fields = true)
    (h : RenderRequest.ofFields fields = .valid request) : request.token.IsWritable := by
  obtain ⟨value, hvalue, htoken⟩ := Decode.required_eq_valid_iff.mp (fields_of_valid h).1
  have hsendable := Json.isSendable_of_field? hfields hvalue
  cases value with
  | object inner => exact RawToken.isWritable_of_valid hsendable htoken
  | _ => simp [RawToken.ofJson, Decode.object, Checked.fault] at htoken

/-- A request to recolor a document has passed the checks of a request to render a color, and its
document is a text in the body. -/
theorem renderRequest_of_valid {fields : List (RawText × Json)} {request : RecolorRequest}
    (h : RecolorRequest.ofFields fields = .valid request) :
    RenderRequest.ofFields fields = .valid request.toRenderRequest ∧
      Decode.required fields "document" Decode.string = .valid request.document := by
  obtain ⟨_, document, hmap, hdocument, rfl⟩ := Checked.seq_eq_valid_iff.mp h
  obtain ⟨render, hrender, rfl⟩ := Checked.map_eq_valid_iff.mp hmap
  exact ⟨hrender, hdocument⟩

/-! ## The three answers -/

/-- The text was converted, or found to be no color and refused. No text with a lone surrogate is a
color. -/
def Converted (request : ConvertRequest) (status : Nat) : Prop :=
  ∃ outcome, request.code.toString?.elim (.ok none) (convert · request.target) = .ok outcome ∧
    status = if outcome.isSome then 200 else 400

/-- The color was written in place of the token. It was sent, unless the token has put a lone
surrogate into what is written. -/
def Rendered (request : RenderRequest) (status : Nat) : Prop :=
  ∃ written, request.token.render request.color = .ok written ∧
    status = if request.token.IsWritable then 200 else 500

/-- The color can be put in place of the token. It was, unless the token ends outside the document.
The new document was sent, unless the token has put a lone surrogate into it or one has stayed. -/
def Recolored (request : RecolorRequest) (status : Nat) : Prop :=
  ∃ edited, request.token.recolor request.document request.color = .ok edited ∧
    status = if request.token.stop ≤ request.document.length then
      if request.token.IsWritable ∧
        (request.token.surroundings request.document).isUnicode = true then 200 else 500
      else 400

/-- Every text is converted or refused. -/
theorem converted_convertColor (request : ConvertRequest) :
    Converted request (convertColor request).send.status := by
  obtain ⟨outcome, houtcome⟩ := convert_succeeds request.code.shown request.target
  refine ⟨outcome, by rw [← RawText.convert_shown, houtcome], ?_⟩
  rw [send_convertColor houtcome]
  cases outcome <;> rfl

/-- Every color that passed its checks is written in place of every token. -/
theorem rendered_renderColor {request : RenderRequest}
    (h : Decode.isColor request.color.toList = true) :
    Rendered request (renderColor request).send.status := by
  obtain ⟨written, hwritten, hunicode⟩ := request.token.render_spec h
  refine ⟨written, hwritten, ?_⟩
  simp only [send_renderColor hwritten, hunicode]
  split_ifs <;> rfl

/-- Every color that passed its checks is put in place of every token inside of the document. -/
theorem recolored_recolor {request : RecolorRequest}
    (h : Decode.isColor request.color.toList = true) :
    Recolored request (recolor request).send.status := by
  obtain ⟨edited, hedited, hunicode⟩ := request.token.recolor_spec request.document h
  refine ⟨edited, hedited, ?_⟩
  simp only [send_recolor hedited, hunicode]
  split_ifs <;> rfl

end Service

end CssColor
