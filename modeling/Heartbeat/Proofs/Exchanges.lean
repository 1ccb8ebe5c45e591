import Heartbeat.Http.Exchange

/-!
# Heartbeat.Proofs.Exchanges

What becomes of sends over HTTP, however the collector treats their connections.

* `Redirects q r next`      — response `r` sends request `q` on as `next`.
* `Follows net q hops last` — from `q` the redirections `hops` lead to the request `last`.
* `Finishes`                — what a request comes to that is not sent on.
* `follows_and_finishes`    — an exchange follows redirections, and then finishes.
* `Follows.exchange_eq`     — it does so whatever would come after.
* `Response.Receives r b`   — `b` is the body of `r`, and was received whole.
* `Post.Answered`           — a body was received whole, under a status that is no error.
* `Post.Classified`         — what a send tells, by the treatments that it has used up.
-/

namespace Heartbeat
namespace Http

/-- A response sends a request on: with some statuses to ask for what is at another address, with
others to be repeated there. -/
inductive Redirects (q : Request) (r : Response) : Request → Prop where
  | asks {location : String} {u : Url} :
      r.location = some location → q.url.resolve location = .ok u →
      r.status ∈ [301, 302, 303] → Redirects q r (q.movedTo u).asGet
  | repeats {location : String} {u : Url} :
      r.location = some location → q.url.resolve location = .ok u →
      r.status ∈ [307, 308] → Redirects q r (q.movedTo u)

theorem redirects_iff {q next : Request} {r : Response} :
    q.after? r = some next ↔ Redirects q r next := by
  unfold Request.after?
  constructor
  · intro h
    cases hl : r.location with
    | none => simp [hl] at h
    | some location =>
      cases hu : q.url.resolve location with
      | error f => simp [hl, hu, Except.toOption] at h
      | ok u =>
        simp only [hl, hu, Except.toOption, Option.bind_eq_bind, Option.bind_some] at h
        split at h <;> cases h
        · exact .asks hl hu (by simp [*])
        · exact .asks hl hu (by simp [*])
        · exact .asks hl hu (by simp [*])
        · exact .repeats hl hu (by simp [*])
        · exact .repeats hl hu (by simp [*])
  · rintro (⟨hl, hu, hs⟩ | ⟨hl, hu, hs⟩)
    · simp only [List.mem_cons, List.not_mem_nil, or_false] at hs
      rcases hs with hs | hs | hs <;> simp [hl, hu, hs, Except.toOption]
    · simp only [List.mem_cons, List.not_mem_nil, or_false] at hs
      rcases hs with hs | hs <;> simp [hl, hu, hs, Except.toOption]

theorem after?_eq_none {q : Request} {r : Response} (h : ∀ next, ¬ Redirects q r next) :
    q.after? r = none := by
  rw [Option.eq_none_iff_forall_not_mem]
  exact fun next hn => h next (redirects_iff.mp hn)

/-- Requests that are sent on one after another, each with the response that does so. -/
inductive Follows (net : Network) : Request → List (Request × Response) → Request → Prop where
  | here {q : Request} : Follows net q [] q
  | hop {q next last : Request} {r : Response} {hops : List (Request × Response)} :
      net.barrierTo? q.url = none → Redirects q r next → next.url.isHttp = true →
      Follows net next hops last → Follows net q ((q, r) :: hops) last

/-- The treatments that redirections take. -/
def taken (hops : List (Request × Response)) : List Treatment := hops.map fun h => .responds h.2

/-- How a request ends that is not sent on, with the treatments and the requests that it takes. -/
inductive Finishes (net : Network) (left : Nat) (q : Request) :
    List Treatment → List Request → Ending → Prop where
  | unreachable {why : ErrorChain} : net.barrierTo? q.url = some why →
      Finishes net left q [] [] (.fault (.unreachable q.url why))
  | silent : net.barrierTo? q.url = none → Finishes net left q [] [q] (.silent q.url)
  | closed : net.barrierTo? q.url = none →
      Finishes net left q [.closes] [q] (.fault (.closed q.url))
  | answered {r : Response} : net.barrierTo? q.url = none → (∀ next, ¬ Redirects q r next) →
      Finishes net left q [.responds r] [q] (r.ending q.url)
  | tooOften {r : Response} {next : Request} : net.barrierTo? q.url = none →
      Redirects q r next → left = 0 →
      Finishes net left q [.responds r] [q] (.fault (.redirectedTooOften q.url))
  | schemeRefused {r : Response} {next : Request} : net.barrierTo? q.url = none →
      Redirects q r next → left ≠ 0 → next.url.isHttp = false →
      Finishes net left q [.responds r] [q] (.fault (.schemeRefused next.url))

variable {net : Network} {left : Nat} {q last : Request} {ts : List Treatment}

/-- Whether a request is left without an answer. -/
def Ending.isSilent : Ending → Bool
  | silent _ => true
  | body _ | fault _ => false

theorem isSilent_ending (r : Response) (u : Url) : (r.ending u).isSilent = false := by
  unfold Response.ending
  split
  · rfl
  · split <;> rfl

/-- The body of a response is there as soon as none is to come, with the end of the connection, or
once it is as long as was announced. -/
inductive Response.Receives (r : Response) : Bytes → Prop where
  | bare : r.status ∈ [204, 304] → Receives r []
  | unannounced : r.status ∉ [204, 304] → r.length = none → Receives r r.sent
  | announced {b : Bytes} : r.status ∉ [204, 304] → r.length = some b.length → b <+: r.sent →
      Receives r b

theorem isBare_iff {r : Response} : r.isBare = true ↔ r.status ∈ [204, 304] := by
  simp [Response.isBare]

theorem body?_eq_some_iff {r : Response} {b : Bytes} : r.body? = some b ↔ r.Receives b := by
  constructor
  · intro h
    unfold Response.body? at h
    split at h
    · rename_i hbare
      cases h
      exact .bare (isBare_iff.mp hbare)
    · rename_i hbare
      have hstatus := mt isBare_iff.mpr hbare
      split at h
      · rename_i hlength
        cases h
        exact .unannounced hstatus hlength
      · rename_i n hlength
        split at h
        · rename_i hle
          cases h
          refine .announced hstatus ?_ (List.take_prefix n r.sent)
          rw [hlength, List.length_take, Nat.min_eq_left hle]
        · cases h
  · intro h
    cases h with
    | bare hs => rw [Response.body?, if_pos (isBare_iff.mpr hs)]
    | unannounced hs hl => rw [Response.body?, if_neg (mt isBare_iff.mp hs), hl]
    | announced hs hl hfront =>
      rw [Response.body?, if_neg (mt isBare_iff.mp hs), hl]
      simp [hfront.length_le, ← List.prefix_iff_eq_take.mp hfront]

theorem ending_eq_body_iff {r : Response} {u : Url} {b : Bytes} :
    r.ending u = .body b ↔ r.isError = false ∧ r.body? = some b := by
  unfold Response.ending
  cases r.isError <;> cases r.body? <;> simp

/-! ## An exchange -/

theorem exchange_hop {r : Response} {next : Request} (hb : net.barrierTo? q.url = none)
    (hr : Redirects q r next) (hs : next.url.isHttp = true) :
    exchange net (left + 1) q (.responds r :: ts) =
      { exchange net left next ts with requests := q :: (exchange net left next ts).requests } := by
  rw [exchange]
  simp [hb, redirects_iff.mpr hr, hs]

/-- What a request comes to does not depend on what comes after it, unless nothing comes. -/
theorem Finishes.exchange_eq {used : List Treatment} {made : List Request} {e : Ending}
    (h : Finishes net left q used made e) (hts : e.isSilent = true → ts = []) :
    exchange net left q (used ++ ts) = ⟨e, made, ts⟩ := by
  cases h with
  | unreachable hb => unfold exchange; simp [hb]
  | silent hb =>
    rw [hts rfl]
    unfold exchange
    simp [hb]
  | closed hb => unfold exchange; simp [hb]
  | answered hb hr => unfold exchange; simp [hb, after?_eq_none hr]
  | tooOften hb hr hl =>
    subst hl
    unfold exchange
    simp [hb, redirects_iff.mpr hr]
  | schemeRefused hb hr hl hs =>
    obtain ⟨left, rfl⟩ := Nat.exists_eq_succ_of_ne_zero hl
    unfold exchange
    simp [hb, redirects_iff.mpr hr, hs]

/-- A request finishes, or is sent on. -/
theorem finishes_or_hop (net : Network) (left : Nat) (q : Request) (ts : List Treatment) :
    (∃ used made e rest, Finishes net left q used made e ∧ ts = used ++ rest ∧
      (e.isSilent = true → rest = [])) ∨
    ∃ r next rest, ts = .responds r :: rest ∧ net.barrierTo? q.url = none ∧ Redirects q r next ∧
      next.url.isHttp = true ∧ left ≠ 0 := by
  cases hb : net.barrierTo? q.url with
  | some why => exact .inl ⟨[], [], _, ts, .unreachable hb, rfl, fun hs => by cases hs⟩
  | none =>
    match ts with
    | [] => exact .inl ⟨[], [q], _, [], .silent hb, rfl, fun _ => rfl⟩
    | .closes :: rest => exact .inl ⟨_, [q], _, rest, .closed hb, rfl, fun hs => by cases hs⟩
    | .responds r :: rest =>
      by_cases hr : ∃ next, Redirects q r next
      · obtain ⟨next, hr⟩ := hr
        by_cases hl : left = 0
        · exact .inl ⟨_, [q], _, rest, .tooOften hb hr hl, rfl, fun hs => by cases hs⟩
        · cases hs : next.url.isHttp with
          | false =>
            exact .inl ⟨_, [q], _, rest, .schemeRefused hb hr hl hs, rfl, fun hs => by cases hs⟩
          | true => exact .inr ⟨r, next, rest, rfl, rfl, hr, hs, hl⟩
      · refine .inl ⟨_, [q], _, rest, .answered hb fun next hn => hr ⟨next, hn⟩, rfl, fun hs => ?_⟩
        rw [isSilent_ending] at hs
        cases hs

/-- An exchange follows redirections, as many as it may, and then finishes. -/
theorem follows_and_finishes (net : Network) (left : Nat) (q : Request) (ts : List Treatment) :
    ∃ hops last used made e rest, Follows net q hops last ∧ hops.length ≤ left ∧
      Finishes net (left - hops.length) last used made e ∧ ts = taken hops ++ used ++ rest ∧
      (e.isSilent = true → rest = []) := by
  induction left generalizing q ts with
  | zero =>
    rcases finishes_or_hop net 0 q ts with ⟨used, made, e, rest, hf, hts, hrest⟩ | ⟨_, _, _, hhop⟩
    · exact ⟨[], q, used, made, e, rest, .here, Nat.le_refl _, hf, hts, hrest⟩
    · exact absurd rfl hhop.2.2.2.2
  | succ left ih =>
    rcases finishes_or_hop net (left + 1) q ts with
      ⟨used, made, e, rest, hf, hts, hrest⟩ | ⟨r, next, rest, rfl, hb, hr, hs, -⟩
    · exact ⟨[], q, used, made, e, rest, .here, Nat.zero_le _, hf, hts, hrest⟩
    · obtain ⟨hops, last, used, made, e, rest', hfollows, hlen, hf, rfl, hrest⟩ := ih next rest
      refine ⟨(q, r) :: hops, last, used, made, e, rest', .hop hb hr hs hfollows,
        Nat.succ_le_succ hlen, ?_, rfl, hrest⟩
      rwa [List.length_cons, Nat.add_sub_add_right]

/-- So it takes just the treatments of the redirections and those of the end. -/
theorem Follows.exchange_eq {hops : List (Request × Response)} {used : List Treatment}
    {made : List Request} {e : Ending} (h : Follows net q hops last) (hlen : hops.length ≤ left)
    (hf : Finishes net (left - hops.length) last used made e) (ts : List Treatment)
    (hts : e.isSilent = true → ts = []) :
    exchange net left q (taken hops ++ used ++ ts) = ⟨e, hops.map Prod.fst ++ made, ts⟩ := by
  induction h generalizing left with
  | here => exact hf.exchange_eq hts
  | @hop q next last r hops hb hr hs _ ih =>
    obtain ⟨left, rfl⟩ : ∃ n, left = n + 1 := ⟨left - 1, by rw [List.length_cons] at hlen; omega⟩
    rw [List.length_cons, Nat.add_sub_add_right] at hf
    have hnext := ih (Nat.le_of_succ_le_succ hlen) hf
    rw [taken, List.map_cons, List.cons_append, List.cons_append, exchange_hop hb hr hs]
    rw [taken] at hnext
    rw [hnext]
    rfl

/-! ## A send -/

theorem ofBody_ne_timeout (b : Bytes) : Outcome.ofBody b ≠ .timeout := by
  unfold Outcome.ofBody
  split
  · exact fun h => by cases h
  · split
    · rename_i a _
      unfold Acknowledgement.outcome
      split <;> exact fun h => by cases h
    · exact fun h => by cases h

namespace Ending

variable {e : Ending} {timeout wait : Nat}

/-- Without a body a send fails on the way, or times out. -/
theorem outcome_of_no_body (h : ∀ b, e ≠ .body b) :
    (∃ message, e.outcome timeout wait = .fail .transport message) ∨
      e.outcome timeout wait = .timeout := by
  cases e with
  | body b => exact absurd rfl (h b)
  | fault f => exact .inl ⟨_, rfl⟩
  | silent u =>
    simp only [outcome]
    split
    · exact .inl ⟨_, rfl⟩
    · exact .inr rfl

theorem outcome_eq_timeout_iff :
    e.outcome timeout wait = .timeout ↔ e.isSilent = true ∧ wait ≤ timeout := by
  constructor
  · intro h
    cases e with
    | body b => exact absurd h (ofBody_ne_timeout b)
    | fault f => cases h
    | silent u =>
      refine ⟨rfl, Nat.le_of_not_lt fun hlt => ?_⟩
      rw [outcome, if_pos hlt] at h
      cases h
  · rintro ⟨hs, hle⟩
    cases e with
    | silent u => exact if_neg (Nat.not_lt_of_le hle)
    | body | fault => cases hs

end Ending

namespace Post

variable (p : Post) (net : Network) (wait : Nat) (d : Descriptor) (share : List Treatment)

/-- A send gets a body that was received whole, under a status that is no error, after at most so
many redirections, and has used up the treatments of these. -/
def Answered (b : Bytes) : Prop :=
  ∃ q hops last r, Request.posting p.url p.token d = .ok q ∧ Follows net q hops last ∧
    hops.length ≤ 10 ∧ net.barrierTo? last.url = none ∧ (∀ next, ¬ Redirects last r next) ∧
    share = taken hops ++ [.responds r] ∧ ¬ (400 ≤ r.status ∧ r.status < 600) ∧ r.Receives b

/-- A send reaches the collector when it has used up the treatments of its redirections, and gets
no more. -/
def KeptWaiting : Prop :=
  ∃ q hops last, Request.posting p.url p.token d = .ok q ∧ Follows net q hops last ∧
    hops.length ≤ 10 ∧ net.barrierTo? last.url = none ∧ share = taken hops

/-- What a send tells that has used up these treatments. -/
structure Classified (delivery : Delivery) : Prop where
  few : share.length ≤ 11
  /-- It does what it would do if there were no other treatments. -/
  own : p.send net wait d share = { delivery with rest := [] }
  answered : ∀ b, p.Answered net d share b → delivery.outcome = .ofBody b
  failed : (¬ ∃ b, p.Answered net d share b) →
    (∃ message, delivery.outcome = .fail .transport message) ∨ delivery.outcome = .timeout
  timedOut : delivery.outcome = .timeout ↔ p.KeptWaiting net d share ∧ wait ≤ p.timeout
  /-- It is kept waiting only if there are none left. -/
  waiting : p.KeptWaiting net d share → delivery.rest = []
  /-- Otherwise it does the same whatever comes after them. -/
  settled : ¬ p.KeptWaiting net d share →
    ∀ more, p.send net wait d (share ++ more) = { delivery with rest := more }

variable {p net wait d share} {b : Bytes}

theorem Answered.ending_eq (h : p.Answered net d share b) :
    (p.exchange net d share).ending = .body b := by
  obtain ⟨q, hops, last, r, hq, hfollows, hlen, hb, hr, rfl, hstatus, hbody⟩ := h
  have hexchange := hfollows.exchange_eq hlen (.answered hb hr) [] fun _ => rfl
  have herror : r.isError = false := by simpa [Response.isError] using hstatus
  rw [List.append_nil, ending_eq_body_iff.mpr ⟨herror, body?_eq_some_iff.mpr hbody⟩] at hexchange
  simp [Post.exchange, hq, redirectLimit, hexchange]

theorem KeptWaiting.ending_eq (h : p.KeptWaiting net d share) :
    ∃ u, (p.exchange net d share).ending = .silent u := by
  obtain ⟨q, hops, last, hq, hfollows, hlen, hb, rfl⟩ := h
  have hexchange := hfollows.exchange_eq hlen (.silent hb) [] fun _ => rfl
  rw [List.append_nil, List.append_nil] at hexchange
  exact ⟨last.url, by simp [Post.exchange, hq, redirectLimit, hexchange]⟩

/-- How a send uses up treatments: what it comes to is settled by those. -/
theorem exchange_spends (p : Post) (net : Network) (d : Descriptor) (ts : List Treatment) :
    ∃ share e made rest, ts = share ++ rest ∧ share.length ≤ 11 ∧
      (∀ b, e = .body b → p.Answered net d share b) ∧
      (e.isSilent = true → p.KeptWaiting net d share ∧ rest = []) ∧
      ∀ more, (e.isSilent = true → more = []) →
        p.exchange net d (share ++ more) = ⟨e, made, more⟩ := by
  cases hq : Request.posting p.url p.token d with
  | error f =>
    refine ⟨[], .fault f, [], ts, rfl, Nat.zero_le _, ?_, ?_, fun more _ => ?_⟩
    · exact fun b hb => by cases hb
    · exact fun hs => by cases hs
    · simp [Post.exchange, hq]
  | ok q =>
    obtain ⟨hops, last, used, made, e, rest, hfollows, hlen, hf, rfl, hrest⟩ :=
      follows_and_finishes net redirectLimit q ts
    have hused : used.length ≤ 1 := by cases hf <;> simp
    refine ⟨taken hops ++ used, e, hops.map Prod.fst ++ made, rest, rfl, ?_, ?_, ?_, ?_⟩
    · simp only [taken, List.length_append, List.length_map, redirectLimit] at hlen ⊢
      omega
    · rintro b rfl
      generalize he : Ending.body b = e at hf
      cases hf with
      | answered hb hr =>
        obtain ⟨herror, hbody⟩ := ending_eq_body_iff.mp he.symm
        refine ⟨q, hops, last, _, hq, hfollows, hlen, hb, hr, rfl, ?_, body?_eq_some_iff.mp hbody⟩
        simpa [Response.isError] using herror
      | _ => cases he
    · intro hs
      refine ⟨?_, hrest hs⟩
      cases hf with
      | silent hb => exact ⟨q, hops, last, hq, hfollows, hlen, hb, List.append_nil _⟩
      | answered =>
        rw [isSilent_ending] at hs
        cases hs
      | _ => cases hs
    · intro more hmore
      rw [Post.exchange, hq]
      exact hfollows.exchange_eq hlen hf more hmore

theorem send_classified (p : Post) (net : Network) (wait : Nat) (d : Descriptor)
    (ts : List Treatment) :
    ∃ share, ts = share ++ (p.send net wait d ts).rest ∧
      p.Classified net wait d share (p.send net wait d ts) := by
  obtain ⟨share, e, made, rest, rfl, hlen, hbody, hsilent, hexchange⟩ := p.exchange_spends net d ts
  have hsend : p.send net wait d (share ++ rest) = ⟨e.outcome p.timeout wait, made, rest⟩ := by
    rw [send, hexchange rest fun hs => (hsilent hs).2]
  have hown := hexchange [] fun _ => rfl
  rw [List.append_nil] at hown
  have hwaiting : p.KeptWaiting net d share → e.isSilent = true := by
    intro hw
    obtain ⟨u, hu⟩ := hw.ending_eq
    rw [hown] at hu
    rw [show e = .silent u from hu]
    rfl
  rw [hsend]
  refine ⟨share, rfl, hlen, ?_, fun b hb => ?_, fun hno => ?_, ?_, fun hw => ?_, fun hw more => ?_⟩
  · rw [send, hown]
  · have hending := hb.ending_eq
    rw [hown] at hending
    rw [show e = .body b from hending]
    rfl
  · exact Ending.outcome_of_no_body fun b hb => hno ⟨b, hbody b hb⟩
  · rw [Ending.outcome_eq_timeout_iff]
    exact and_congr_left' ⟨fun hs => (hsilent hs).1, hwaiting⟩
  · exact (hsilent (hwaiting hw)).2
  · rw [send, hexchange more fun hs => absurd (hsilent hs).1 hw]

end Post

/-! ## A sample -/

/-- An address of a host `c`. -/
def sampleUrl (name : List Char) : Url where
  scheme := ['h', 't', 't', 'p']
  host := some (.name ['c'])
  port := none
  path := .segments [name]
  query := none
  fragment := none

theorem posting_sample (d : Descriptor) :
    Request.posting "http://c/a" none d = .ok ⟨.post, sampleUrl ['a'], none, some d.encode⟩ := rfl

/-- A send to a collector that redirects it with a status and then acknowledges. -/
def redirected (d : Descriptor) (status : Nat) : Delivery :=
  Post.send ⟨"http://c/a", none, 10⟩ .loopback 10 d
    [.responds ⟨status, "", some "/b", [], none⟩,
      .responds ⟨200, "OK", none, utf8 (Acknowledgement.encode ⟨true, none⟩), none⟩]

theorem ofBody_ack : Outcome.ofBody (utf8 (Acknowledgement.encode ⟨true, none⟩)) = .success := by
  decide

/-- A redirection that repeats the request. -/
theorem redirected_repeat (d : Descriptor) :
    redirected d 307 = ⟨.success, [⟨.post, sampleUrl ['a'], none, some d.encode⟩,
      ⟨.post, sampleUrl ['b'], none, some d.encode⟩], []⟩ := by
  rw [redirected, Post.send, Post.exchange, posting_sample, ← ofBody_ack]
  generalize d.encode = body
  rfl

/-! ## Sends one after another -/

/-- **Sends over HTTP are classified by what they get.** Sends made one after another use up the
treatments of their connections in order, at most eleven each. One that gets a body, whole, after at
most ten redirections and under a status outside of 400 to 599, comes to what that body says. Any
other fails on the way or times out; it times out just if it is kept waiting and its own time is not
over before the wait. What it has not used up changes nothing. -/
theorem sends_are_classified (p : Post) (net : Network) (wait : Nat) (d : Descriptor) (n : Nat)
    (ts : List Treatment) :
    ∃ (shares : List (List Treatment)) (left : List Treatment),
      ts = shares.flatten ++ left ∧ shares.length = n ∧
      (p.sendAll net wait d n ts).length = n ∧
      ∀ i share delivery, shares[i]? = some share →
        (p.sendAll net wait d n ts)[i]? = some delivery →
        delivery.rest = (shares.drop (i + 1)).flatten ++ left ∧
        p.Classified net wait d share delivery := by
  induction n generalizing ts with
  | zero => exact ⟨[], ts, rfl, rfl, rfl, fun i share delivery hs => by cases hs⟩
  | succ n ih =>
    obtain ⟨share, hshare, hclassified⟩ := p.send_classified net wait d ts
    obtain ⟨shares, left, hrest, hshares, hlen, hall⟩ := ih (p.send net wait d ts).rest
    refine ⟨share :: shares, left, ?_, ?_, ?_, ?_⟩
    · rw [List.flatten_cons, List.append_assoc, ← hrest]
      exact hshare
    · rw [List.length_cons, hshares]
    · rw [Post.sendAll, List.length_cons, hlen]
    · intro i s delivery hs hd
      cases i with
      | zero =>
        cases hs
        cases hd
        exact ⟨hrest, hclassified⟩
      | succ i => exact hall i s delivery hs hd

/-- The descriptor is sent on once, and the answer to that is received whole. -/
theorem redirected_send_is_classified :
    let p : Post := ⟨"http://c/a", none, 10⟩
    let d : Descriptor := ⟨"a-1", "app", "host", "10.0.0.1", 1, "1.0", 0, [], false⟩
    let ack := utf8 (Acknowledgement.encode ⟨true, none⟩)
    let share : List Treatment :=
      [.responds ⟨307, "", some "/b", [], none⟩, .responds ⟨200, "OK", none, ack, none⟩]
    p.Answered .loopback d share ack ∧ (redirected d 307).outcome = .ofBody ack ∧
      p.Classified .loopback 10 d share (redirected d 307) := by
  intro p d ack share
  have answered : p.Answered .loopback d share ack := by
    refine ⟨_, [(⟨.post, sampleUrl ['a'], none, some d.encode⟩, ⟨307, "", some "/b", [], none⟩)],
      ⟨.post, sampleUrl ['b'], none, some d.encode⟩, ⟨200, "OK", none, ack, none⟩,
      posting_sample d, ?_, ?_, rfl, ?_, rfl, ?_, ?_⟩
    · exact .hop rfl (.repeats rfl rfl (by simp)) rfl .here
    · simp
    · rintro next (⟨hl, _, _⟩ | ⟨hl, _, _⟩) <;> cases hl
    · simp
    · exact .unannounced (by simp) rfl
  obtain ⟨shares, left, hshare, hlen, -, hall⟩ := sends_are_classified p .loopback 10 d 1 share
  obtain ⟨first, rfl⟩ := List.length_eq_one_iff.mp hlen
  obtain ⟨hrest, classified⟩ := hall 0 first (redirected d 307) rfl rfl
  have hleft : left = [] := by
    rw [redirected_repeat] at hrest
    exact hrest.symm
  have hfirst : share = first := by rw [hshare, hleft]; simp
  rw [← hfirst] at classified
  exact ⟨answered, classified.answered ack answered, classified⟩

end Http
end Heartbeat
