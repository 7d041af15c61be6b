import JarAtlas.Proofs.Command.Files
import JarAtlas.Proofs.FileTree.Directories

/-! A fetch from the web. Nothing is made before the server has answered with the content. From then
on the file has what has come so far, so that a transfer that breaks off leaves a part of it. -/
namespace JarAtlas

theorem Response.fine_iff {response : Response} : response.fine = true ↔ response.status = 200 :=
  beq_iff_eq

namespace RemoteRepository

open Files FileTree

/-- A file of this content stands where the path leads, and all other files are as they were. -/
structure Received (path : String) (here : Location) (content : Bytes) (t t' : FileTree) : Prop where
  read : t'.readFile here path = .ok content
  rest : ∃ place, t'.resolve here path = .ok place ∧ SameFilesBut place t t'

theorem received_of_standing {here place : Location} {dir path : String} {content : Bytes}
    {t t₁ t' : FileTree} (made : t.makeDirs here dir = (t₁, .ok ()))
    (stands : t'.Standing here path place content)
    (others : ∀ p, p ≠ place → t'.find? p = t₁.find? p) : Received path here content t t' :=
  ⟨stands.readFile, place, stands.resolve, sameFilesBut_of_makeDirs made others⟩

variable [Web] [Url.HostNames] {r : RemoteRepository} {c : Coordinate} {dir : String} {url : Url}
  {response : Response} {w : World}

/-- Without the content, nothing is made: the place is no address, there is no answer, or the answer
is a refusal. -/
theorem nothing_made_before_content (r : RemoteRepository) (c : Coordinate) (dir : String)
    (w : World) :
    (∀ e, r.artifactUrl c = .error e →
      World.outcome (r.fetch c dir) w = (.ok (.error e), w.files)) ∧
    ∀ url, r.artifactUrl c = .ok url →
      (∀ f, Web.answer ⟨url.toString, r.credentials?⟩ = .error f →
        World.outcome (r.fetch c dir) w = (.ok (.error (.broken f)), w.files)) ∧
      ∀ response, Web.answer ⟨url.toString, r.credentials?⟩ = .ok response →
        response.status ≠ 200 → World.outcome (r.fetch c dir) w =
          (.ok (.error (.refused response.status url.toString)), w.files) := by
  rw [(World.Follows.fetchFromWeb r c dir).outcome_eq w, play_fetch]
  refine ⟨fun e wrong => ?_, fun url located =>
    ⟨fun f silent => ?_, fun response answered other => ?_⟩⟩
  · rw [wrong]
  · simp only [located, silent]
  · have refused : ¬ response.fine = true := fun fine => other (Response.fine_iff.1 fine)
    simp only [located, answered, if_neg refused]

/-- A fetch succeeds only with the whole content, which is then what the file has, and which its size
and its digest are about. -/
theorem stored_as_sent {a : Artifact} {t' : FileTree}
    (done : World.outcome (r.fetch c dir) w = (.ok (.ok a), t')) :
    ∃ url response, r.artifactUrl c = .ok url ∧
      Web.answer ⟨url.toString, r.credentials?⟩ = .ok response ∧
      response.status = 200 ∧ response.fault? = none ∧
      a = .ofContent (Path.append dir c.fileName) response.pieces.flatten ∧
      Received a.path w.here response.pieces.flatten w.files t' := by
  rw [(World.Follows.fetchFromWeb r c dir).outcome_eq w] at done
  obtain ⟨url, response, located, answered, fine, whole, rfl, t₁, place, made, stands, others⟩ :=
    play_fetch_ok done
  exact ⟨url, response, located, answered, Response.fine_iff.1 fine, whole, rfl,
    received_of_standing made stands others⟩

/-- Once the server answers with the content and the file can be made, the file has all that was
sent. A transfer that breaks off is an error all the same. -/
theorem stored_as_far_as_sent {t₁ t₂ : FileTree} (located : r.artifactUrl c = .ok url)
    (answered : Web.answer ⟨url.toString, r.credentials?⟩ = .ok response)
    (fine : response.status = 200) (made : w.files.makeDirs w.here dir = (t₁, .ok ()))
    (written : t₁.writeFile w.here (Path.append dir c.fileName) [] = .ok t₂) :
    ∃ t', World.outcome (r.fetch c dir) w =
        (.ok (match response.fault? with
          | some f => .error (.broken f)
          | none => .ok (.ofContent (Path.append dir c.fileName) response.pieces.flatten)), t') ∧
      Received (Path.append dir c.fileName) w.here response.pieces.flatten w.files t' := by
  obtain ⟨t', place, stands, others, stored⟩ := play_store_of_made response made written
  refine ⟨t', ?_, received_of_standing made stands others⟩
  rw [(World.Follows.fetchFromWeb r c dir).outcome_eq w, play_fetch, located]
  simp only [answered, if_pos (Response.fine_iff.2 fine)]
  exact stored

end RemoteRepository
end JarAtlas
