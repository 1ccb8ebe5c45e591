import Heartbeat.Proofs.Exchanges

/-!
# Heartbeat.Proofs.Redirections

Which request it is that an acknowledgement answers, and what that request carries.

* `Request.Carries q d` — the request posts the descriptor.
* `Request.IsBare q`    — the request only asks.
* `posting_carries`     — the first request of a send posts its descriptor.
* `Follows.carries`     — so does the last one where all redirections repeat it.
* `Follows.isBare`      — otherwise the last one only asks.
-/

namespace Heartbeat
namespace Http

structure Request.Carries (q : Request) (d : Descriptor) : Prop where
  method : q.method = .post
  body : q.body = some d.encode

structure Request.IsBare (q : Request) : Prop where
  method : q.method = .get
  body : q.body = none

theorem Request.IsBare.not_carries {q : Request} (h : q.IsBare) (d : Descriptor) :
    ¬ q.Carries d := by
  intro hc
  have hmethod := h.method.symm.trans hc.method
  cases hmethod

theorem posting_carries {url : String} {token : Option String} {d : Descriptor} {q : Request}
    (h : Request.posting url token d = .ok q) : q.Carries d := by
  unfold Request.posting at h
  cases hu : Url.ofText url with
  | error f =>
    rw [hu] at h
    cases h
  | ok u =>
    rw [hu] at h
    replace h : (if (!u.hasHost) = true then Except.error (Fault.schemeRefused u)
        else if (!(token.getD "").toList.all headerAllows) = true then .error Fault.headerInvalid
        else if (!u.isHttp) = true then .error (Fault.schemeRefused u)
        else .ok ⟨.post, u, token, some d.encode⟩) = .ok q := h
    split at h
    · cases h
    · split at h
      · cases h
      · split at h
        · cases h
        · cases h
          exact ⟨rfl, rfl⟩

/-! ## What redirections leave of a request -/

section Redirections

variable {net : Network} {q next last : Request} {r : Response} {d : Descriptor}
  {hops : List (Request × Response)}

/-- A response by which a request is made anew as one that only asks. -/
def Response.Asks (r : Response) : Prop := r.status ∈ [301, 302, 303]

theorem Redirects.isBare (h : Redirects q r next) (hr : r.Asks) : next.IsBare := by
  cases h with
  | asks => exact ⟨rfl, rfl⟩
  | repeats _ _ hs =>
    simp only [Response.Asks, List.mem_cons, List.not_mem_nil, or_false] at hr hs
    omega

theorem Redirects.isBare_of_isBare (h : Redirects q r next) (hq : q.IsBare) : next.IsBare := by
  cases h with
  | asks => exact ⟨rfl, rfl⟩
  | repeats => exact ⟨hq.method, hq.body⟩

theorem Redirects.carries (h : Redirects q r next) (hr : ¬ r.Asks) (hq : q.Carries d) :
    next.Carries d := by
  cases h with
  | asks _ _ hs => exact absurd hs hr
  | repeats => exact ⟨hq.method, hq.body⟩

theorem Follows.isBare_of_isBare (h : Follows net q hops last) (hq : q.IsBare) : last.IsBare := by
  induction h with
  | here => exact hq
  | hop _ hr _ _ ih => exact ih (hr.isBare_of_isBare hq)

/-- Once made anew a request stays so. -/
theorem Follows.isBare (h : Follows net q hops last) (hasks : ∃ hop ∈ hops, hop.2.Asks) :
    last.IsBare := by
  induction h with
  | here =>
    obtain ⟨_, hmem, -⟩ := hasks
    cases hmem
  | hop _ hr _ hrest ih =>
    obtain ⟨hop, hmem, ha⟩ := hasks
    rcases List.mem_cons.mp hmem with rfl | hmem
    · exact hrest.isBare_of_isBare (hr.isBare ha)
    · exact ih ⟨hop, hmem, ha⟩

theorem Follows.carries (h : Follows net q hops last) (hrepeats : ∀ hop ∈ hops, ¬ hop.2.Asks)
    (hq : q.Carries d) : last.Carries d := by
  induction h with
  | here => exact hq
  | hop _ hr _ _ ih =>
    obtain ⟨hfirst, hothers⟩ := List.forall_mem_cons.mp hrepeats
    exact ih hothers (hr.carries hfirst hq)

theorem Follows.carries_iff (h : Follows net q hops last) (hq : q.Carries d) :
    last.Carries d ↔ ∀ hop ∈ hops, ¬ hop.2.Asks := by
  constructor
  · intro hc hop hmem ha
    exact (h.isBare ⟨hop, hmem, ha⟩).not_carries d hc
  · intro hrepeats
    exact h.carries hrepeats hq

end Redirections

/-! ## Acknowledgements -/

theorem Ending.eq_body_of_success {timeout wait : Nat} {e : Ending}
    (h : e.outcome timeout wait = .success) : ∃ b, e = .body b ∧ Outcome.ofBody b = .success := by
  cases e with
  | body b => exact ⟨b, rfl, h⟩
  | fault f => cases h
  | silent u =>
    simp only [Ending.outcome] at h
    split at h <;> cases h

/-- **An acknowledgement answers the last request of its send.** A send that is acknowledged has
posted its descriptor first. The request acknowledged is the last one, after all redirections; it
posts the descriptor if each of these repeats the request it answers, and otherwise it only
asks. -/
theorem acknowledgement_answers_last_request {p : Post} {net : Network} {wait : Nat}
    {d : Descriptor} {ts : List Treatment}
    (acknowledged : (p.send net wait d ts).outcome = .success) :
    ∃ q hops last r b, Request.posting p.url p.token d = .ok q ∧ q.Carries d ∧
      Follows net q hops last ∧ ts = taken hops ++ .responds r :: (p.send net wait d ts).rest ∧
      (p.send net wait d ts).requests = hops.map Prod.fst ++ [last] ∧
      r.body? = some b ∧ Outcome.ofBody b = .success ∧
      (last.Carries d ↔ ∀ hop ∈ hops, hop.2.status ∉ [301, 302, 303]) ∧
      ((∃ hop ∈ hops, hop.2.status ∈ [301, 302, 303]) → last.IsBare) := by
  cases hq : Request.posting p.url p.token d with
  | error f =>
    rw [Post.send, Post.exchange, hq] at acknowledged
    cases acknowledged
  | ok q =>
    obtain ⟨hops, last, used, made, e, rest, hfollows, hlen, hf, rfl, hrest⟩ :=
      follows_and_finishes net redirectLimit q ts
    have hsend : p.send net wait d (taken hops ++ used ++ rest) =
        ⟨e.outcome p.timeout wait, hops.map Prod.fst ++ made, rest⟩ := by
      rw [Post.send, Post.exchange, hq]
      simp only [hfollows.exchange_eq hlen hf rest hrest]
    rw [hsend] at acknowledged ⊢
    obtain ⟨b, he, hb⟩ := e.eq_body_of_success acknowledged
    have hcarries := posting_carries hq
    cases hf with
    | @answered r =>
      have hbody := (ending_eq_body_iff.mp he).2
      refine ⟨q, hops, last, r, b, rfl, hcarries, hfollows, ?_, rfl, hbody, hb, ?_, ?_⟩
      · rw [List.append_assoc, List.singleton_append]
      · exact hfollows.carries_iff hcarries
      · exact hfollows.isBare
    | _ => cases he

/-- A redirection that makes the request anew. -/
theorem redirected_ask (d : Descriptor) :
    redirected d 303 = ⟨.success, [⟨.post, sampleUrl ['a'], none, some d.encode⟩,
      ⟨.get, sampleUrl ['b'], none, none⟩], []⟩ := by
  rw [redirected, Post.send, Post.exchange, posting_sample, ← ofBody_ack]
  generalize d.encode = body
  rfl

/-- The second request posts the descriptor again, and is acknowledged. -/
theorem repeated_request_is_acknowledged :
    let d : Descriptor := ⟨"a-1", "app", "host", "10.0.0.1", 1, "1.0", 0, [], false⟩
    (redirected d 307).outcome = .success ∧
      ∃ (hops : List (Request × Response)) (last : Request),
        (redirected d 307).requests = hops.map Prod.fst ++ [last] ∧ last.Carries d ∧
        ∀ hop ∈ hops, hop.2.status ∉ [301, 302, 303] := by
  intro d
  have acknowledged : (redirected d 307).outcome = .success := by rw [redirected_repeat]
  obtain ⟨_, hops, last, _, _, -, -, -, -, hrequests, -, -, hcarries, -⟩ :=
    acknowledgement_answers_last_request acknowledged
  have hlast : (redirected d 307).requests.getLast? = some last :=
    (congrArg List.getLast? hrequests).trans List.getLast?_concat
  rw [redirected_repeat] at hlast
  have hposts : last.Carries d := by
    cases hlast
    exact ⟨rfl, rfl⟩
  exact ⟨acknowledged, hops, last, hrequests, hposts, hcarries.mp hposts⟩

/-- The second request posts nothing, and is acknowledged all the same. -/
theorem bare_request_is_acknowledged :
    let d : Descriptor := ⟨"a-1", "app", "host", "10.0.0.1", 1, "1.0", 0, [], false⟩
    (redirected d 303).outcome = .success ∧
      ∃ last, (redirected d 303).requests.getLast? = some last ∧ last.IsBare ∧
        ¬ last.Carries d := by
  intro d
  rw [redirected_ask]
  have hbare : Request.IsBare ⟨.get, sampleUrl ['b'], none, none⟩ := ⟨rfl, rfl⟩
  exact ⟨rfl, _, rfl, hbare, hbare.not_carries d⟩

end Http
end Heartbeat
