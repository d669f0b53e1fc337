import ServerFoundation.Data.SeparatedText
import ServerFoundation.Srpc.AuthReplay

/-!
# What the legacy signature binds

Protocol versions 1 and 2 sign four fields of the query joined by line feeds. A
field may itself contain line feeds, and nothing refuses such a query, so the
signed text alone does not say where one field ends. Two queries under one text
carry the same fields exactly when their fields agree in the number of line
feeds; otherwise a captured signature passes for another client id and for a
stream id that has not been consumed.
-/

namespace ServerFoundation.Srpc

variable {left right : Query}

/-- The number of line feeds in a field. -/
def lineFeeds (query : Query) (name : String) : ℕ := (field query name).toList.count '\n'

/-- The two queries agree in the four signed fields. -/
structure SameSignedFields (left right : Query) : Prop where
  appv : field left "appv" = field right "appv"
  ts : field left "ts" = field right "ts"
  id : field left "id" = field right "id"
  cid : field left "cid" = field right "cid"

/-- The first three signed fields of the two queries have as many line feeds each. -/
structure SameLineFeeds (left right : Query) : Prop where
  appv : lineFeeds left "appv" = lineFeeds right "appv"
  ts : lineFeeds left "ts" = lineFeeds right "ts"
  id : lineFeeds left "id" = lineFeeds right "id"

theorem toList_legacyAuthText (query : Query) :
    (legacyAuthText query).toList =
      '1' :: '\n' :: ((field query "appv").toList ++ '\n' :: ((field query "ts").toList ++
        '\n' :: ((field query "id").toList ++ '\n' ::
            ((field query "cid").toList ++ ['\n'])))) := by
  simp [legacyAuthText, String.toList_append]

theorem count_legacyAuthText (query : Query) :
    (legacyAuthText query).toList.count '\n' =
      lineFeeds query "appv" + lineFeeds query "ts" + lineFeeds query "id" +
        lineFeeds query "cid" + 5 := by
  rw [toList_legacyAuthText]
  simp only [lineFeeds, List.count_append, List.count_cons, List.count_nil]
  simp
  omega

theorem sameSignedFields_of_lineFeeds (sameText : legacyAuthText left = legacyAuthText right)
    (same : SameLineFeeds left right) : SameSignedFields left right := by
  have texts := congrArg String.toList sameText
  rw [toList_legacyAuthText, toList_legacyAuthText] at texts
  have fromAppv := (List.cons.inj (List.cons.inj texts).2).2
  rcases append_separator_inj fromAppv same.appv with ⟨appv, fromTs⟩
  rcases append_separator_inj fromTs same.ts with ⟨ts, fromId⟩
  rcases append_separator_inj fromId same.id with ⟨id, fromCid⟩
  exact ⟨String.toList_injective appv, String.toList_injective ts, String.toList_injective id,
    String.toList_injective (List.append_cancel_right fromCid)⟩

theorem SameSignedFields.lineFeeds (same : SameSignedFields left right) :
    SameLineFeeds left right where
  appv := by rw [Srpc.lineFeeds, Srpc.lineFeeds, same.appv]
  ts := by rw [Srpc.lineFeeds, Srpc.lineFeeds, same.ts]
  id := by rw [Srpc.lineFeeds, Srpc.lineFeeds, same.id]

theorem sameLineFeeds_of_none (sameText : legacyAuthText left = legacyAuthText right)
    (none : ∀ name ∈ ["appv", "ts", "id", "cid"], lineFeeds left name = 0) :
    SameLineFeeds left right := by
  have counts := congrArg (fun text => text.toList.count '\n') sameText
  simp only [count_legacyAuthText] at counts
  have appv := none "appv" (by simp)
  have ts := none "ts" (by simp)
  have id := none "id" (by simp)
  have cid := none "cid" (by simp)
  exact ⟨by omega, by omega, by omega⟩

/-- Two queries with one signed text agree in the signed fields exactly when their fields have as
many line feeds each. -/
theorem sameSignedFields_iff {left right : Query}
    (sameText : legacyAuthText left = legacyAuthText right) :
    (SameSignedFields left right ↔ SameLineFeeds left right) ∧
      ((∀ name ∈ ["appv", "ts", "id", "cid"], lineFeeds left name = 0) →
        SameSignedFields left right) := by
  refine ⟨⟨SameSignedFields.lineFeeds, sameSignedFields_of_lineFeeds sameText⟩, ?_⟩
  intro none
  exact sameSignedFields_of_lineFeeds sameText (sameLineFeeds_of_none sameText none)

/-- The signed request with metadata and with the signature of another key. -/
def HandshakeServer.describedRequest : Request where
  path := "/srpc"
  parameters := [("m--lang", "en"), ("cid", "client"), ("id", "stream"), ("ts", "1700000000000"),
    ("appv", "1.0"), ("signature", "00"), ("pv", "2")]
  address := "127.0.0.2"

/-- Queries that differ outside the signed fields share their text and those fields. -/
theorem sameSignedFields_of_metadata :
    field HandshakeServer.signedRequest.query "m--lang" ≠
        field HandshakeServer.describedRequest.query "m--lang" ∧
      SameSignedFields HandshakeServer.signedRequest.query
        HandshakeServer.describedRequest.query := by
  have sameText : legacyAuthText HandshakeServer.signedRequest.query =
      legacyAuthText HandshakeServer.describedRequest.query := by decide +kernel
  refine ⟨by decide +kernel, (sameSignedFields_iff sameText).2 ?_⟩
  decide +kernel

namespace HandshakeServer

/-- A request whose client id contains a line feed, signed with the key `secret`. -/
def capturedRequest : Request where
  path := "/srpc"
  parameters := [("appv", "1.0"), ("ts", "1700000000000"), ("id", "stream"),
    ("cid", "client\nother"),
    ("signature", "c0f2c9807a2416517679ac11b354945ad84b5a59a355534a3408aa855e53b9e2"), ("pv", "2")]
  address := "127.0.0.1"

/-- The captured request with the first part of its client id moved into the stream id. -/
def forgedRequest : Request where
  path := "/srpc"
  parameters := [("appv", "1.0"), ("ts", "1700000000000"), ("id", "stream\nclient"),
    ("cid", "other"),
    ("signature", "c0f2c9807a2416517679ac11b354945ad84b5a59a355534a3408aa855e53b9e2"), ("pv", "2")]
  address := "127.0.0.1"

/-- The HMAC of the text under that signature. -/
def capturedHmac (key text : String) : String :=
  if key = "secret" ∧ text = "1\n1.0\n1700000000000\nstream\nclient\nother\n" then
    "c0f2c9807a2416517679ac11b354945ad84b5a59a355534a3408aa855e53b9e2"
  else ""

/-- The handshake of the captured request. -/
def capturedHandshake : Handshake := ⟨capturedRequest, .v2, .finite 1700000000000, .finite 30000⟩

/-- The handshake of the forged request. -/
def forgedHandshake : Handshake := ⟨forgedRequest, .v2, .finite 1700000000000, .finite 30000⟩

/-- The captured request is accepted, and the forged one five milliseconds later. -/
def forgedRun : List HandshakeEvent :=
  [.arrives capturedRequest 1700000000000 0,
    .keyFetched capturedHandshake (some "secret") 1700000000001 1700000000001,
    .admissionAnswered capturedHandshake (.ok ()),
    .arrives forgedRequest 1700000000005 1,
    .keyFetched forgedHandshake (some "secret") 1700000000006 1700000000006,
    .admissionAnswered forgedHandshake (.ok ())]

/-- One server accepts both requests with one signature, for two client ids and two stream ids. -/
theorem signature_accepted_for_two_clients :
    ∃ server, (system replayOptions capturedHmac).Reachable server ∧
      server.accepted = [capturedHandshake, forgedHandshake] ∧
      legacyAuthText capturedRequest.query = legacyAuthText forgedRequest.query ∧
      ¬SameSignedFields capturedRequest.query forgedRequest.query ∧
      capturedHandshake.clientId ≠ forgedHandshake.clientId ∧
      capturedHandshake.replayToken ≠ forgedHandshake.replayToken := by
  have evaluated :
      TransitionSystem.Follows (handle replayOptions capturedHmac) Feasible replayStart
        forgedRun ∧
      (forgedRun.foldl (handle replayOptions capturedHmac) replayStart).accepted =
        [capturedHandshake, forgedHandshake] := by decide +kernel
  rcases evaluated with ⟨follows, accepted⟩
  have started : (system replayOptions capturedHmac).Reachable replayStart := .start ⟨_, rfl⟩
  have reached := started.follow _ _ (fun _ _ feasible => ⟨feasible, rfl⟩) follows
  refine ⟨_, reached, accepted, by decide +kernel, ?_, by decide +kernel, by decide +kernel⟩
  intro same
  have differ : field capturedRequest.query "cid" ≠ field forgedRequest.query "cid" := by
    decide +kernel
  exact differ same.cid

end HandshakeServer

end ServerFoundation.Srpc
