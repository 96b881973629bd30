import SignetSandbox.Cli.Rpc

/-!
# What the client is told

A response from the server to the client, over its text (`readBody_delivers_iff`). Of all that
the server can answer, the client takes one for no response: a result that is `null`.
-/

namespace SignetSandbox

open Wire

/-- What the server can answer. -/
inductive Answer
  | result (id : Option Wire.Id) (value : Value)
  | error (id : Option Wire.Id) (e : Wire.Error)

namespace Answer

def response : Answer → Wire.Response
  | .result id value => .ok id value
  | .error id e => .err id e

/-- The client returns the result, or an error of the same code and message. -/
def Delivered : Answer → Except CallError Value → Prop
  | .result _ value, outcome => outcome = .ok value
  | .error _ e, outcome =>
    ∃ e', outcome = .error (.rpc e') ∧ e'.code = e.code ∧ e'.message = e.message

end Answer

theorem readBody_writeResponse {serde : SerdeJson} {response : Wire.Response} (status : String)
    (h : serde.ReadsBack response) :
    serde.readBody status (serde.writeResponse response) = splitResponse response.received := by
  unfold SerdeJson.readBody SerdeJson.readResponse
  rw [h]
  dsimp only
  rw [Wire.Response.ofValue_toValue]
  rfl

theorem splitResponse_result (id : Option Wire.Id) (value : Value) :
    splitResponse (Wire.Response.ok id value).received =
      if value.isNull then .error (.protocol "response has neither result nor error")
      else .ok value := by
  cases value <;> rfl

theorem splitResponse_error (id : Option Wire.Id) (e : Wire.Error) :
    splitResponse (Wire.Response.err id e).received = .error (.rpc e.received) := rfl

/-- The client is told what the server answers, and never of a broken protocol, exactly when the
answer is not a result of `null`. -/
theorem readBody_delivers_iff {serde : SerdeJson} {answer : Answer} (status : String)
    (h : serde.ReadsBack answer.response) :
    (answer.Delivered (serde.readBody status (serde.writeResponse answer.response)) ∧
      ∀ text, serde.readBody status (serde.writeResponse answer.response) ≠
        .error (.protocol text)) ↔
      ∀ id, answer ≠ .result id .null := by
  rw [readBody_writeResponse status h]
  cases answer with
  | result id value =>
    rw [Answer.response, splitResponse_result]
    cases hnull : value.isNull with
    | true =>
      have hvalue : value = .null := by
        cases value <;> first | rfl | cases hnull
      subst hvalue
      constructor
      · rintro ⟨-, hprotocol⟩
        exact absurd rfl (hprotocol _)
      · intro hne
        exact absurd rfl (hne id)
    | false =>
      constructor
      · rintro - id' heq
        cases heq
        cases hnull
      · intro _
        exact ⟨rfl, fun text => nofun⟩
  | error id e =>
    rw [Answer.response, splitResponse_error]
    constructor
    · rintro - id' ⟨⟩
    · intro _
      exact ⟨⟨e.received, rfl, rfl, rfl⟩, fun text => nofun⟩

/-! ## Two texts -/

/-- The parser on one text. -/
def SerdeJson.on (text : String) (value : Value) : SerdeJson where
  toVec _ := utf8 text
  fromSlice body := if body = utf8 text then .ok value else .error "expected value at line 1 column 1"
  mismatch _ := "invalid type"

theorem SerdeJson.on_readsBack (text : String) (response : Wire.Response) :
    (SerdeJson.on text response.toValue).ReadsBack response := if_pos rfl

def deletedAnswer : Answer := .result (some (.number 1)) (.object [("deleted", .bool true)])

theorem readBody_delivers_deleted :
    deletedAnswer.Delivered
      ((SerdeJson.on r#"{"jsonrpc":"2.0","id":1,"result":{"deleted":true}}"#
        deletedAnswer.response.toValue).readBody "200 OK"
      (utf8 r#"{"jsonrpc":"2.0","id":1,"result":{"deleted":true}}"#)) :=
  ((readBody_delivers_iff "200 OK" (SerdeJson.on_readsBack _ deletedAnswer.response)).2
    fun _ => nofun).1

def nullAnswer : Answer := .result (some (.number 1)) .null

def nullText : String := r#"{"jsonrpc":"2.0","id":1,"result":null}"#

/-- The response has a result, and the client says that it has neither. -/
theorem readBody_null :
    (SerdeJson.on nullText nullAnswer.response.toValue).readBody "200 OK" (utf8 nullText) =
      .error (.protocol "response has neither result nor error") ∧
    ¬ nullAnswer.Delivered
      ((SerdeJson.on nullText nullAnswer.response.toValue).readBody "200 OK" (utf8 nullText)) := by
  have hread := readBody_writeResponse "200 OK" (SerdeJson.on_readsBack nullText nullAnswer.response)
  change (SerdeJson.on nullText nullAnswer.response.toValue).readBody "200 OK" (utf8 nullText) = _ at hread
  rw [hread]
  constructor
  · rfl
  · nofun

end SignetSandbox
