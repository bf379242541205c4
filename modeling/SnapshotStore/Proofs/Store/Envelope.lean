import SnapshotStore.Proofs.Json.Stored
import SnapshotStore.Store.Envelope

/-!
Envelopes and their texts. An envelope is read back from its text, whatever its payload is
(`Envelope.ofText?_render`), and only a JSON value that resembles an envelope is taken for one
(`Envelope.resembles_of_read?`).
-/

namespace SnapshotStore

/-- The envelope store of a name. -/
def EnvelopeStore.ofTexts {keys : KeyKind} {ν : Type} (name : String) (shards : Shards keys.Carrier)
    (encryptor : Option Encryptor) (json : JsonCodec ν) : EnvelopeStore keys.Carrier ν :=
  ⟨⟨name, Layout.texts keys, shards⟩, encryptor, json⟩

namespace Envelope

open Spelling Json

/-! ## Parts -/

theorem eq_of_flag? {v : Json} {b : Bool} (h : flag? v.spelling = some b) : v = .bool b := by
  cases v with
  | bool c =>
    rw [spelling] at h
    cases h
    rfl
  | null | number _ | string _ | array _ | object _ =>
    rw [spelling] at h
    cases h

theorem eq_of_text? {v : Json} {text : String} (h : v.spelling.text? = some text) :
    v = .string text := by
  cases v with
  | string other =>
    rw [spelling, Spelling.text?, piecesText?_pieces] at h
    cases h
    rfl
  | null | bool _ | number _ | array _ | object _ =>
    rw [spelling] at h
    cases h

theorem mem_of_only? {name : String} {members : List (String × Json)} {s : Spelling}
    (h : only? name (members.map fun m => (m.1, m.2.spelling)) = some s) :
    ∃ v, (name, v) ∈ members ∧ s = v.spelling := by
  rw [only?] at h
  split at h
  · rename_i named s' only
    cases h
    have mem : (named, s) ∈ (members.map fun m => (m.1, m.2.spelling)).filter (·.1 = name) := by
      rw [only]
      exact List.mem_cons_self
    obtain ⟨mem, same⟩ := List.mem_filter.1 mem
    obtain ⟨m, hm, eq⟩ := List.mem_map.1 mem
    cases eq
    exact ⟨m.2, by rwa [← of_decide_eq_true same], rfl⟩
  · cases h

/-! ## Reading -/

theorem read?_spelling (e : Envelope) : read? e.toJson.spelling = some e := by
  have fields : e.toJson.spelling.fields? ["encrypted", "payload"] =
      some [(Json.bool e.encrypted).spelling, (Json.string e.payload).spelling] := by
    show Spelling.fields? _ (.object (memberSpellings [_, _])) = _
    rw [Spelling.fields?, named?_memberSpellings]
    rfl
  have flag : flag? (Json.bool e.encrypted).spelling = some e.encrypted := by
    rw [spelling, flag?]
  have text : (Json.string e.payload).spelling.text? = some e.payload := by
    rw [spelling, Spelling.text?, piecesText?_pieces]
  rw [read?, fields]
  simp only [Option.bind_eq_bind, Option.bind_some, flag, text]
  rfl

/-- An envelope is read back from its text. -/
theorem ofText?_render (e : Envelope) : ofText? e.toJson.render = some e := by
  rw [ofText?, read?_render, Option.bind_some, read?_spelling]

/-- Whether a JSON value could be taken for an envelope: a truth value and a text, in an array of two
or as the members of these names, whatever other members there are. -/
inductive Resembles : Json → Prop
  | pair (encrypted : Bool) (payload : String) :
    Resembles (.array [.bool encrypted, .string payload])
  | record {members : List (String × Json)} {encrypted : Bool} {payload : String}
    (flag : ("encrypted", .bool encrypted) ∈ members)
    (text : ("payload", .string payload) ∈ members) : Resembles (.object members)

theorem resembles_of_read? {v : Json} {e : Envelope} (h : read? v.spelling = some e) :
    Resembles v := by
  rw [read?] at h
  obtain ⟨fields, found, h⟩ := Option.bind_eq_some_iff.1 h
  split at h
  · rename_i flag text
    obtain ⟨encrypted, flagged, h⟩ := Option.bind_eq_some_iff.1 h
    obtain ⟨payload, spelled, -⟩ := Option.bind_eq_some_iff.1 h
    cases v with
    | array items =>
      rw [spelling, Spelling.fields?] at found
      split at found
      · rcases items with _ | ⟨first, _ | ⟨second, _ | _⟩⟩ <;> cases found
        obtain rfl := eq_of_flag? flagged
        obtain rfl := eq_of_text? spelled
        exact .pair encrypted payload
      · cases found
    | object members =>
      rw [spelling, Spelling.fields?, named?_memberSpellings] at found
      simp only [Option.bind_eq_bind, Option.bind_some, List.mapM_cons, List.mapM_nil,
        Option.pure_def, Option.bind_eq_some_iff, Option.some.injEq] at found
      obtain ⟨s, first, _, ⟨s', second, _, rfl, rfl⟩, same⟩ := found
      cases same
      obtain ⟨v, mem, rfl⟩ := mem_of_only? first
      obtain ⟨w, mem', rfl⟩ := mem_of_only? second
      obtain rfl := eq_of_flag? flagged
      obtain rfl := eq_of_text? spelled
      exact .record mem mem'
    | null | bool _ | number _ | string _ =>
      rw [spelling] at found
      cases found
  · cases h

end Envelope

end SnapshotStore
