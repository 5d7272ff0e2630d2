import BucketBench.Proofs.Service.Cleanup

set_option autoImplicit false

namespace BucketBench

/-- The answer to an operation, counted from the next one on; when the replies have run out the line is broken. -/
def Conversation.answer (c : Conversation) (i : Nat) : Reply := c.replies[i]?.getD .refused

def Reply.page (reply : Reply) : Except ServiceFault ListingPage := (Operation.listObjects "" none).outcome reply

theorem Reply.outcome_listObjects (reply : Reply) (bucket : String) (token : Option String) :
    (Operation.listObjects bucket token).outcome reply = reply.page := by
  cases reply with
  | refused => rfl
  | answered r =>
    simp only [page, Operation.outcome, Operation.judge, Operation.accept?, Operation.isFetch]
    cases Response.listingPage? r.body <;> rfl

namespace Conversation

theorem fst_exchange_eq_answer (op : Operation) (c : Conversation) : (exchange op c).1 = c.answer 0 := by
  rw [fst_exchange, answer, List.head?_eq_getElem?]

theorem answer_exchange (op : Operation) (c : Conversation) (i : Nat) :
    (exchange op c).2.answer i = c.answer (i + 1) := by
  rw [answer, answer, replies_exchange, List.getElem?_tail]

theorem lt_length_replies_of_page {c : Conversation} {i : Nat} {page : ListingPage}
    (h : (c.answer i).page = .ok page) : i < c.replies.length := by
  refine Nat.lt_of_not_le fun beyond => ?_
  have none : c.replies[i]? = none := List.getElem?_eq_none beyond
  rw [answer, none] at h
  cases h

end Conversation

def ListingPage.LeadsOn (p : ListingPage) : Prop := p.isTruncated = some true ∧ p.next.isSome = true

namespace ListingPage

variable {p : ListingPage}

theorem following?_of_leadsOn (h : p.LeadsOn) : ∃ token, p.next = some token ∧ p.following? = some token := by
  obtain ⟨truncated, next⟩ := h
  obtain ⟨token, next⟩ := Option.isSome_iff_exists.1 next
  refine ⟨token, next, ?_⟩
  rw [following?, if_pos truncated, next]

theorem following?_of_not_leadsOn (h : ¬ p.LeadsOn) : p.following? = none := by
  unfold following?
  split
  · rename_i truncated
    exact Option.not_isSome_iff_eq_none.1 fun next => h ⟨truncated, next⟩
  · rfl

end ListingPage

/-- The requests of a listing that meets these pages, each under the token of the page before it. -/
def pageRequests (bucket : String) (token : Option String) (pages : List ListingPage) : List Operation :=
  (token :: pages.map (·.next)).map (.listObjects bucket)

/-- What a listing comes to by the pages that lead on and the answer to its last request. -/
def listingOutcome (pages : List ListingPage) (last : Reply) : Except Error (List String) :=
  match last.page with
  | .ok page => .ok ((pages ++ [page]).flatMap fun p => p.entries.filterMap id)
  | .error fault => .error (.client "object_list" fault.message)

namespace Account

section Run

variable {a : Account} {bucket : String} (single : a.settings.maxAttempts ≤ 1)
  (reached : a.reaches (.listObjects bucket none))
include single reached

theorem run_send_listObjects (token : Option String) (c : Conversation) :
    (a.send "object_list" (.listObjects bucket token)).run c =
      ((c.answer 0).page.mapError fun fault => .client "object_list" fault.message,
        (Conversation.exchange (.listObjects bucket token) c).2) := by
  rw [run_send a "object_list" (.listObjects bucket token) c single reached, Conversation.fst_exchange_eq_answer,
    Reply.outcome_listObjects]

theorem run_keysFrom_of_last {count : Nat} {token : Option String} {c : Conversation}
    (ends : ∀ page, (c.answer 0).page = .ok page → ¬ page.LeadsOn) :
    (a.keysFrom bucket (count + 1) token).run c =
      (listingOutcome [] (c.answer 0), (Conversation.exchange (.listObjects bucket token) c).2) := by
  rw [keysFrom, run_bind, run_send_listObjects single reached, listingOutcome]
  rcases answered : (c.answer 0).page with fault | page
  · rfl
  · have none := ListingPage.following?_of_not_leadsOn (ends page answered)
    simp only [mapError_ok, none]
    simp [ListingPage.keys]
    rfl

theorem run_keysFrom_of_leadsOn {count : Nat} {token : Option String} {c : Conversation} {page : ListingPage}
    (answered : (c.answer 0).page = .ok page) (leads : page.LeadsOn) :
    (a.keysFrom bucket (count + 1) token).run c =
      let later := (a.keysFrom bucket count page.next).run (Conversation.exchange (.listObjects bucket token) c).2
      (later.1.map (page.keys ++ ·), later.2) := by
  obtain ⟨next, held, following⟩ := ListingPage.following?_of_leadsOn leads
  rw [keysFrom, run_bind, run_send_listObjects single reached, answered, held]
  simp only [mapError_ok, following]
  rw [run_bind]
  rcases (a.keysFrom bucket count (some next)).run _ with ⟨fault | keys, after⟩ <;> rfl

theorem keysFrom_follows {pages : List ListingPage} {count : Nat} {token : Option String} {c : Conversation}
    (enough : pages.length < count)
    (leads : ∀ i page, pages[i]? = some page → (c.answer i).page = .ok page ∧ page.LeadsOn)
    (ends : ∀ page, (c.answer pages.length).page = .ok page → ¬ page.LeadsOn) :
    ((a.keysFrom bucket count token).run c).2.exchanges =
        c.exchanges ++ (pageRequests bucket token pages).mapIdx (fun i op => ⟨op, c.answer i⟩) ∧
      ((a.keysFrom bucket count token).run c).1 = listingOutcome pages (c.answer pages.length) := by
  -- every page that leads on is one request, and what follows is a listing from its token on
  induction pages generalizing count token c with
  | nil =>
    obtain ⟨count, rfl⟩ := Nat.exists_eq_add_one_of_ne_zero (Nat.ne_zero_of_lt enough)
    rw [run_keysFrom_of_last single reached ends, Conversation.exchanges_exchange, Conversation.fst_exchange_eq_answer]
    exact ⟨rfl, rfl⟩
  | cons page pages ih =>
    obtain ⟨count, rfl⟩ := Nat.exists_eq_add_one_of_ne_zero (Nat.ne_zero_of_lt enough)
    obtain ⟨answered, first⟩ := leads 0 page rfl
    let next := (Conversation.exchange (.listObjects bucket token) c).2
    have shifted : ∀ i, next.answer i = c.answer (i + 1) := Conversation.answer_exchange _ c
    have leads' : ∀ i p, pages[i]? = some p → (next.answer i).page = .ok p ∧ p.LeadsOn := by
      intro i p h
      rw [shifted]
      exact leads (i + 1) p h
    have ends' : ∀ p, (next.answer pages.length).page = .ok p → ¬ p.LeadsOn := by
      intro p h
      rw [shifted] at h
      exact ends p h
    have enough' : pages.length < count := by
      rw [List.length_cons] at enough
      omega
    have later := @ih count page.next next enough' leads' ends'
    simp only [shifted] at later
    rw [run_keysFrom_of_leadsOn single reached answered first]
    constructor
    · have requests : pageRequests bucket token (page :: pages) =
          .listObjects bucket token :: pageRequests bucket page.next pages := rfl
      simp only
      rw [later.1, Conversation.exchanges_exchange, Conversation.fst_exchange_eq_answer, List.append_assoc, requests,
        List.mapIdx_cons, List.singleton_append]
    · simp only
      rw [later.2, listingOutcome, listingOutcome, List.length_cons]
      rcases (c.answer (pages.length + 1)).page with fault | last <;> rfl

end Run

/-- Let the first answers be pages that are marked truncated and carry a token, and let the next answer be a failure or
a page that leads no further. Then a listing sends exactly one request for each of them, the first without a token and
every other one with that of the page before it; it gives the keys of all pages in order, or it fails as the last answer
says. A bucket that cannot be addressed is not asked for. -/
theorem objectKeys_follows_pages {a : Account} {bucket : String} {c : Conversation} {pages : List ListingPage}
    (single : a.settings.maxAttempts ≤ 1)
    (leads : ∀ i page, pages[i]? = some page → (c.answer i).page = .ok page ∧ page.LeadsOn)
    (ends : ∀ page, (c.answer pages.length).page = .ok page → ¬ page.LeadsOn) :
    (a.reaches (.listObjects bucket none) →
        ((a.objectKeys bucket).run c).2.exchanges =
            c.exchanges ++ (pageRequests bucket none pages).mapIdx (fun i op => ⟨op, c.answer i⟩) ∧
          ((a.objectKeys bucket).run c).1 = listingOutcome pages (c.answer pages.length)) ∧
      (¬ a.reaches (.listObjects bucket none) →
        ∃ text, (a.objectKeys bucket).run c = (.error (.client "object_list" text), c)) := by
  rw [run_objectKeys]
  constructor
  · intro reached
    have enough : pages.length < c.replies.length + 1 := by
      rcases Nat.eq_zero_or_pos pages.length with none | some
      · omega
      · have last : pages.length - 1 < pages.length := by omega
        have answered := (leads _ _ (List.getElem?_eq_getElem last)).1
        have inside := Conversation.lt_length_replies_of_page answered
        omega
    exact keysFrom_follows single reached enough leads ends
  · intro unreached
    rw [keysFrom, run_bind, run_send_unsent "object_list" c unreached]
    exact ⟨_, rfl⟩

namespace Suite

def firstPage : Reply := .answered ⟨200, [],
  "<ListBucketResult><IsTruncated>true</IsTruncated><Contents><Key>j</Key></Contents><Contents></Contents>" ++
    "<NextContinuationToken>t</NextContinuationToken></ListBucketResult>"⟩

set_option maxRecDepth 2000 in
theorem firstPage_eq : firstPage.page = .ok ⟨[some "j", none], some true, some "t"⟩ := by
  obtain ⟨text, same, chars⟩ : ∃ text, firstPage = .answered ⟨200, [], text⟩ ∧ text.toList = _ :=
    ⟨_, rfl, String.toList_append.trans (congrArg₂ (· ++ ·) String.toList_ofList String.toList_ofList)⟩
  have read : Xml.Element.root? text = some ⟨⟨"", "ListBucketResult"⟩,
      [.element ⟨"", "IsTruncated"⟩ [.text ['t', 'r', 'u', 'e']],
       .element ⟨"", "Contents"⟩ [.element ⟨"", "Key"⟩ [.text ['j']]], .element ⟨"", "Contents"⟩ [],
       .element ⟨"", "NextContinuationToken"⟩ [.text ['t']]]⟩ := by
    rw [Xml.Element.root?, Xml.parts, Xml.Token.scan, chars]
    rfl
  rw [same]
  refine Operation.outcome_of_root read rfl ?_
  rw [Operation.accept?, Response.listingPage?, Xml.Element.expect?, read]
  rfl

/-- The second page is the last one: it is not marked. -/
theorem objectKeys_follows_pages_suite :
    ((account.objectKeys "suite").run ⟨⟨[], []⟩, [firstPage, page], []⟩).2.exchanges =
        [⟨.listObjects "suite" none, firstPage⟩, ⟨.listObjects "suite" (some "t"), page⟩] ∧
      ((account.objectKeys "suite").run ⟨⟨[], []⟩, [firstPage, page], []⟩).1 = .ok ["j", "k"] := by
  let c : Conversation := ⟨⟨[], []⟩, [firstPage, page], []⟩
  let first : ListingPage := ⟨[some "j", none], some true, some "t"⟩
  have single : account.settings.maxAttempts ≤ 1 := by decide
  have last : page.page = .ok ⟨[some "k"], none, none⟩ := by rw [← Reply.outcome_listObjects, page_eq]
  have leads : ∀ i p, [first][i]? = some p → (c.answer i).page = .ok p ∧ p.LeadsOn := by
    rintro (_ | i) p h
    · obtain rfl := Option.some.inj h
      exact ⟨firstPage_eq, rfl, rfl⟩
    · simp at h
  have ends : ∀ p, (c.answer [first].length).page = .ok p → ¬ p.LeadsOn := by
    rintro p h ⟨truncated, -⟩
    obtain rfl := Except.ok.inj (last.symm.trans h)
    cases truncated
  obtain ⟨exchanges, outcome⟩ := (objectKeys_follows_pages single leads ends).1 (reaches_suite rfl rfl)
  have listed : listingOutcome [first] page = .ok ["j", "k"] := by
    rw [listingOutcome, last]
    rfl
  exact ⟨exchanges, outcome.trans listed⟩

end Suite

end Account

end BucketBench
