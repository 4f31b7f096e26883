import RamlBuild.Proofs.Build.Machine
import RamlBuild.Web.Release

/-!
# What requests do

A request leaves the files and the machine alone, and what is received is something that the network
sends.

## Main definitions

* `OnlyRequests` — nothing happened but requests
* `Host.Sends` — a response that can be received

## Main results

* `fetchOk_ok` — what is received
* `download_ok` — what is downloaded is written
-/

namespace RamlBuild

open Build

variable {host host' : Host} {url accept version : String} {address : Url} {response : Response}
  {target : Path}

/-- The files and the machine stay as they are. -/
structure OnlyRequests (host host' : Host) : Prop where
  files : host'.files = host.files
  machine : SameMachine host host'

theorem chains_onlyRequests : Chains OnlyRequests where
  refl host := ⟨rfl, chains_sameMachine.refl host⟩
  trans h h' := ⟨h'.files.trans h.files, chains_sameMachine.trans h.machine h'.machine⟩

/-- A response that can be received: the network answers a request with it. -/
def Host.Sends (host : Host) (response : Response) : Prop :=
  ∃ url sent, host.network url = some sent ∧ response = sent.received

theorem Host.Sends.of_sameMachine (h : host'.Sends response) (hsame : SameMachine host host') :
    host.Sends response := by
  obtain ⟨url, sent, hsent, rfl⟩ := h
  exact ⟨url, sent, hsame.network ▸ hsent, rfl⟩

theorem request_result {result : Except Failure Response}
    (h : exec (request address accept) host = (result, host')) :
    OnlyRequests host host' ∧ ∀ response, result = .ok response → host.Sends response := by
  rw [request, exec_bind_of_ok (exec_get host)] at h
  split at h
  · obtain ⟨rfl, rfl⟩ := Prod.mk.inj h
    exact ⟨chains_onlyRequests.refl host, by simp⟩
  · rename_i sent hsent
    rw [exec_bind_of_ok (exec_set host _)] at h
    split at h
    · obtain ⟨rfl, rfl⟩ := Prod.mk.inj h
      exact ⟨⟨rfl, rfl, rfl, rfl, rfl, rfl, rfl, rfl⟩, by simp⟩
    · obtain ⟨rfl, rfl⟩ := Prod.mk.inj h
      refine ⟨⟨rfl, rfl, rfl, rfl, rfl, rfl, rfl, rfl⟩, ?_⟩
      rintro _ ⟨⟩
      exact ⟨_, sent, hsent, rfl⟩

theorem follow_zero (accept : String) (address : Url) :
    follow accept 0 address = (do
      let response ← request address accept
      match response.redirect?.bind address.join? with
      | none => pure response
      | some _ => fail .http) := by
  delta follow
  refine bind_congr fun response => ?_
  dsimp only
  rcases response.redirect?.bind address.join? with _ | ⟨_ | _⟩ <;> rfl

theorem follow_succ (accept : String) (left : Nat) (address : Url) :
    follow accept (left + 1) address = (do
      let response ← request address accept
      match response.redirect?.bind address.join? with
      | none => pure response
      | some (.page next) => follow accept left next
      | some _ => fail .http) := by
  delta follow
  refine bind_congr fun response => ?_
  dsimp only
  rcases response.redirect?.bind address.join? with _ | ⟨_ | _⟩ <;> rfl

/-- What is received in the end was sent, after whatever redirects. -/
theorem follow_result {left : Nat} {result : Except Failure Response}
    (h : exec (follow accept left address) host = (result, host')) :
    OnlyRequests host host' ∧ ∀ response, result = .ok response → host.Sends response := by
  induction left generalizing address host with
  | zero =>
    rw [follow_zero] at h
    rcases exec_bind_cases h with ⟨response, host₁, hrequest, h⟩ | ⟨failure, hrequest, rfl⟩
    · obtain ⟨hasked, hsends⟩ := request_result hrequest
      split at h
      · obtain ⟨rfl, rfl⟩ := Prod.mk.inj h
        exact ⟨hasked, hsends⟩
      · obtain ⟨rfl, rfl⟩ := Prod.mk.inj h
        exact ⟨hasked, by simp⟩
    · exact ⟨(request_result hrequest).1, by simp⟩
  | succ left ih =>
    rw [follow_succ] at h
    rcases exec_bind_cases h with ⟨response, host₁, hrequest, h⟩ | ⟨failure, hrequest, rfl⟩
    · obtain ⟨hasked, hsends⟩ := request_result hrequest
      split at h
      · obtain ⟨rfl, rfl⟩ := Prod.mk.inj h
        exact ⟨hasked, hsends⟩
      · obtain ⟨hasked', hsends'⟩ := ih h
        exact ⟨chains_onlyRequests.trans hasked hasked',
          fun response hresponse => (hsends' response hresponse).of_sameMachine hasked.machine⟩
      · obtain ⟨rfl, rfl⟩ := Prod.mk.inj h
        exact ⟨hasked, by simp⟩
    · exact ⟨(request_result hrequest).1, by simp⟩

theorem onlyRequests_parseUrl : Always OnlyRequests (parseUrl url) := by
  unfold parseUrl
  split
  · exact Always.pure chains_onlyRequests _
  · exact Always.throw chains_onlyRequests _

theorem onlyRequests_fetch : Always OnlyRequests (fetch url accept) :=
  Always.within (Always.bind chains_onlyRequests onlyRequests_parseUrl fun _ _ _ _ h =>
    (follow_result h).1)

theorem onlyRequests_fetchOk : Always OnlyRequests (fetchOk url accept) := by
  refine Always.bind chains_onlyRequests onlyRequests_fetch fun response => ?_
  split
  · exact Always.pure chains_onlyRequests _
  · exact Always.throw chains_onlyRequests _

/-- What is received was sent by the network. -/
theorem fetchOk_ok (h : exec (fetchOk url accept) host = (.ok response, host')) :
    OnlyRequests host host' ∧ host.Sends response := by
  refine ⟨onlyRequests_fetchOk h, ?_⟩
  obtain ⟨received, host₁, hfetch, h⟩ := exec_bind_ok h
  obtain ⟨address, host₂, hparse, hfollow⟩ := exec_bind_ok (exec_within_ok hfetch)
  have hsends := (follow_result hfollow).2 received rfl
  split at h
  · obtain rfl := Except.ok.inj (Prod.mk.inj h).1
    exact hsends.of_sameMachine (onlyRequests_parseUrl hparse).machine
  · exact absurd (Prod.mk.inj h).1 (by simp)

/-- What is downloaded is written. -/
theorem download_ok (h : exec (download url target) host = (.ok (), host')) :
    ∃ response asked, OnlyRequests host asked ∧ host.Sends response ∧
      exec (writeBytes target response.body) asked = (.ok (), host') := by
  obtain ⟨response, asked, hfetch, hwrite⟩ := exec_bind_ok h
  obtain ⟨hasked, hsends⟩ := fetchOk_ok hfetch
  exact ⟨response, asked, hasked, hsends, hwrite⟩

/-! ### The machine -/

theorem sameMachine_download : Always SameMachine (download url target) :=
  Always.bind chains_sameMachine (fun _ _ _ h => (onlyRequests_fetchOk h).machine) fun _ =>
    sameMachine_changing

theorem onlyRequests_fetchRelease : Always OnlyRequests (fetchRelease url version) := by
  refine Always.bind chains_onlyRequests onlyRequests_fetchOk fun response => ?_
  split
  · exact Always.pure chains_onlyRequests _
  · exact Always.within (Always.throw chains_onlyRequests _)

theorem onlyRequests_fetchLatestTag : Always OnlyRequests (fetchLatestTag url) := by
  refine Always.bind chains_onlyRequests (Always.within ?_) fun response => ?_
  · exact Always.bind chains_onlyRequests onlyRequests_parseUrl fun _ _ _ _ h =>
      (request_result h).1
  · split
    · exact Always.pure chains_onlyRequests _
    · exact Always.throw chains_onlyRequests _

theorem onlyRequests_currentPlatform : Always OnlyRequests currentPlatform := by
  refine Always.bind chains_onlyRequests ?_ fun host => ?_
  · intro host result host' h
    obtain ⟨-, rfl⟩ := Prod.mk.inj h
    exact chains_onlyRequests.refl host
  · split
    · exact Always.pure chains_onlyRequests _
    · exact Always.pure chains_onlyRequests _
    · exact Always.throw chains_onlyRequests _

end RamlBuild
