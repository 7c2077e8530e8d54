import Dvws.Deployment.Extraction
import Dvws.Memory.Block

/-!
# The body that is deployed

`main` receives a request once, into a buffer of 1024 bytes that is zeroed before, and `deploy_site`
copies as many bytes as `Content-Length` declares from behind the blank line on. Nothing compares
this number with what was received. `HandsOverBody` says that the copy stays within the received
bytes; `hands_over_body_iff` says for which requests it does.
-/

namespace Dvws

open Effect Files Memory

/-- `MAX_REQUEST_SIZE`. -/
def maxRequestSize : Nat := 1024

/-- The buffer that these bytes were received into. -/
def requestBuffer (received : Bytes) : Bytes :=
  received ++ List.replicate (maxRequestSize - received.length) 0

/-- The bytes that are copied were all received, and are those behind the first blank line; or the
request is answered with an error and nothing is extracted. -/
def HandsOverBody (plat : Platform) (req : HttpRequest) (received : Bytes) : Prop :=
  match acceptedBody plat req with
  | none => ∃ message, deploySite plat req = sendError plat req message
  | some (bodyStart, length) => ∃ blankLine zipData,
      Text.find (lit "\r\n\r\n") received = some blankLine ∧ bodyStart = blankLine + 4 ∧
      loadAll (filled received) bodyStart length = .ok zipData ∧
      zipData = (received.drop bodyStart).take length ∧
      deploySite plat req = deployBody plat req zipData

/-- The text of a request is read from what was received. -/
theorem text_prefix {req : HttpRequest} {received : Bytes}
    (hraw : req.raw = requestBuffer received) : req.text <+: received := by
  rw [HttpRequest.text, hraw, requestBuffer, cstr_append_zeros]
  exact List.takeWhile_prefix _

/-- Bytes inside the received part of the buffer are read as they were received. -/
theorem read_memory_received (plat : Platform) {received : Bytes} {offset length : Nat}
    (h : offset + length ≤ received.length) :
    readMemory plat (requestBuffer received) offset length =
      (received.drop offset).take length := by
  unfold readMemory requestBuffer
  refine List.ext_getElem ?_ fun i hi _ => ?_
  · rw [List.length_map, List.length_range, List.length_take, List.length_drop]
    omega
  · rw [List.length_map, List.length_range] at hi
    have hinside : offset + i < received.length := by omega
    rw [List.getElem_map, List.getElem_range, List.getElem_take, List.getElem_drop,
      List.getD_eq_getElem?_getD, List.getElem?_append_left hinside,
      List.getElem?_eq_getElem hinside, Option.getD_some]

/-- A body that is handed over as it was received lies inside the received part. -/
theorem HandsOverBody.inside {plat : Platform} {req : HttpRequest} {received : Bytes}
    {bodyStart length : Nat} (h : HandsOverBody plat req received)
    (hbody : acceptedBody plat req = some (bodyStart, length)) :
    bodyStart + length ≤ received.length := by
  unfold HandsOverBody at h
  rw [hbody] at h
  obtain ⟨_, zipData, -, -, hload, -⟩ := h
  obtain ⟨-, hlength, -⟩ := deploy_site_of_accepted hbody
  have hinside := le_of_load_all hload hlength
  rwa [filled, List.length_map] at hinside

/-- `deploy_site` hands over the body as it was received, or rejects the request, exactly when the
declared length of an accepted body is no more than what was received behind the blank line. -/
theorem hands_over_body_iff {plat : Platform} {req : HttpRequest} {received : Bytes}
    (hraw : req.raw = requestBuffer received) :
    HandsOverBody plat req received ↔ ∀ bodyStart length,
      acceptedBody plat req = some (bodyStart, length) → bodyStart + length ≤ received.length := by
  constructor
  · intro hhands bodyStart length hbody
    exact hhands.inside hbody
  · intro hfits
    unfold HandsOverBody
    cases hbody : acceptedBody plat req with
    | none => exact deploy_site_of_rejected hbody
    | some body =>
        obtain ⟨bodyStart, length⟩ := body
        obtain ⟨hdeploy, -, blankLine, hblank, hstart⟩ := deploy_site_of_accepted hbody
        have hinside := hfits bodyStart length hbody
        obtain ⟨rest, hrest⟩ := text_prefix hraw
        refine ⟨blankLine, _, ?_, hstart, load_all_filled hinside, rfl, ?_⟩
        · rw [← hrest]
          exact Text.find_append_of_some hblank
        · rw [hdeploy, hraw, read_memory_received plat hinside]

/-- A request whose body was received whole. -/
def wholeRequest : HttpRequest := { deployRequest with raw := requestBuffer deployRequest.raw }

/-- The body that was received whole is deployed as it was received. -/
theorem hands_over_body_iff_whole : HandsOverBody .bare wholeRequest deployRequest.raw := by
  have hraw : wholeRequest.raw = requestBuffer deployRequest.raw := rfl
  have hbody : acceptedBody .bare wholeRequest = some (55, 4) := by decide +kernel
  rw [hands_over_body_iff hraw, hbody]
  intro bodyStart length hsome
  obtain ⟨rfl, rfl⟩ := Prod.mk.inj (Option.some.inj hsome)
  decide +kernel

/-- What is received of a request that declares one byte too many. -/
def overstated : Bytes :=
  lit "POST /admin/deploy_site HTTP/1.1\r\nContent-Length: 5\r\n\r\nPK.."

/-- The request. -/
def overstatedRequest : HttpRequest :=
  ⟨requestBuffer overstated, lit "POST", lit "/admin/deploy_site", []⟩

/-- When one byte more is declared than was received, the byte behind the received ones is deployed
with them. -/
theorem not_hands_over_body :
    HttpRequest.parse (requestBuffer overstated) = .ok (true, overstatedRequest) ∧
      ¬ HandsOverBody .bare overstatedRequest overstated := by
  have hbody : acceptedBody .bare overstatedRequest = some (55, 5) := by decide +kernel
  refine ⟨by decide +kernel, fun hhands => ?_⟩
  have hinside : 55 + 5 ≤ overstated.length := hhands.inside hbody
  exact absurd hinside (by decide +kernel)

end Dvws
