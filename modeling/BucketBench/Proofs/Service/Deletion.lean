import BucketBench.Proofs.Service.Emptying
import BucketBench.Proofs.Service.Listing
import Mathlib.Algebra.Order.Floor.Div

set_option autoImplicit false

namespace BucketBench

open List (Forall₂)

/-! ## Batches -/

/-- Keys are cut into batches in their order: as many as are needed, none of them empty and none too large. -/
structure Cuts (size : Nat) (keys : List String) (batches : List (List String)) : Prop where
  whole : batches.flatten = keys
  count : batches.length = keys.length ⌈/⌉ size
  sizes : ∀ batch ∈ batches, 1 ≤ batch.length ∧ batch.length ≤ size

namespace Account

/-- One batch takes `size` of the keys, or all of them when there are fewer. -/
theorem ceilDiv_eq_succ {size count : Nat} (h : 0 < size) (some : 0 < count) :
    count ⌈/⌉ size = (count - size) ⌈/⌉ size + 1 := by
  rw [Nat.ceilDiv_eq_add_pred_div, Nat.ceilDiv_eq_add_pred_div, ← Nat.add_div_right _ h]
  rcases Nat.lt_or_ge count size with few | many
  · have one : (count + size - 1) / size = 1 := Nat.div_eq_of_lt_le (by omega) (by omega)
    have last : (count - size + size - 1 + size) / size = 1 := Nat.div_eq_of_lt_le (by omega) (by omega)
    rw [one, last]
  · congr 1
    omega

theorem length_batches {α : Type} {size : Nat} (h : 0 < size) (pieces : Nat) (xs : List α)
    (enough : xs.length ≤ pieces) : (batches size pieces xs).length = xs.length ⌈/⌉ size := by
  induction pieces generalizing xs with
  | zero =>
    obtain rfl := List.eq_nil_of_length_eq_zero (Nat.le_zero.1 enough)
    exact (zero_ceilDiv size).symm
  | succ pieces ih =>
    cases xs with
    | nil => exact (zero_ceilDiv size).symm
    | cons x rest =>
      have shorter : ((x :: rest).drop size).length ≤ pieces := by
        simp only [List.length_drop, List.length_cons] at *
        omega
      have some : 0 < (x :: rest).length := Nat.succ_pos _
      rw [batches, List.length_cons (a := List.take size _), ih _ shorter, List.length_drop, ceilDiv_eq_succ h some]

theorem cuts_batches {size : Nat} (h : 0 < size) (keys : List String) :
    Cuts size keys (batches size keys.length keys) where
  whole := flatten_batches h _ _ (Nat.le_refl _)
  count := length_batches h _ _ (Nat.le_refl _)
  sizes _ mem := length_of_mem_batches h mem

end Account

/-! ## Scripts of answers -/

structure Conversation.GoesOn (c : Conversation) (sent : List Exchange) (after : Conversation) : Prop where
  appended : after.exchanges = c.exchanges ++ sent
  replies : ∀ (i : Nat) (e : Exchange), sent[i]? = some e → e.reply = c.answer i
  rest : ∀ i, after.answer i = c.answer (sent.length + i)

namespace Conversation.GoesOn

variable {c middle after : Conversation} {sent more : List Exchange}

theorem nil (c : Conversation) : c.GoesOn [] c :=
  ⟨(List.append_nil _).symm, by simp, fun i => by rw [List.length_nil, Nat.zero_add]⟩

theorem exchange (op : Operation) (c : Conversation) :
    c.GoesOn [⟨op, c.answer 0⟩] (Conversation.exchange op c).2 where
  appended := by rw [exchanges_exchange, fst_exchange_eq_answer]
  replies i e h := by
    obtain ⟨rfl, rfl⟩ : i = 0 ∧ _ = e := by simpa [List.getElem?_singleton] using h
    rfl
  rest i := by rw [answer_exchange, List.length_singleton, Nat.add_comm]

theorem append (first : c.GoesOn sent middle) (second : middle.GoesOn more after) : c.GoesOn (sent ++ more) after where
  appended := by rw [second.appended, first.appended, List.append_assoc]
  replies i e h := by
    rcases Nat.lt_or_ge i sent.length with early | late
    · rw [List.getElem?_append_left early] at h
      exact first.replies i e h
    · rw [List.getElem?_append_right late] at h
      rw [second.replies _ e h, first.rest, Nat.add_sub_cancel' late]
  rest i := by rw [second.rest, first.rest, List.length_append, Nat.add_assoc]

end Conversation.GoesOn

/-! ## The course -/

/-- How a listing goes from a token on: page after page, each under the token of the page before it, up to the page that
leads no further or the request that fails. -/
inductive ListingRun (bucket : String) : Option String → Except ServiceFault (List String) → List Exchange → Prop where
  | last {token : Option String} {reply : Reply} {page : ListingPage}
      (answer : (Operation.listObjects bucket token).outcome reply = .ok page) (ends : ¬ page.LeadsOn) :
      ListingRun bucket token (.ok page.keys) [⟨.listObjects bucket token, reply⟩]
  | next {token : Option String} {reply : Reply} {page : ListingPage} {result : Except ServiceFault (List String)}
      {sent : List Exchange} (answer : (Operation.listObjects bucket token).outcome reply = .ok page)
      (leads : page.LeadsOn) (further : ListingRun bucket page.next result sent) :
      ListingRun bucket token (result.map (page.keys ++ ·)) (⟨.listObjects bucket token, reply⟩ :: sent)
  | failed {token : Option String} {reply : Reply} {fault : ServiceFault}
      (failure : (Operation.listObjects bucket token).outcome reply = .error fault) :
      ListingRun bucket token (.error fault) [⟨.listObjects bucket token, reply⟩]

def TakesBatch (bucket : String) (batch : List String) (e : Exchange) : Prop :=
  e.operation = .deleteObjects bucket batch ∧ e.isSuccess = true

/-- How a deletion by force goes. It ends with a request for a page that fails, with a request for a batch that fails, or,
when the whole listing was deleted, with the request for the bucket. -/
inductive DeletionRun (bucket : String) : Except Error Unit → List Exchange → Prop where
  | unlisted {fault : ServiceFault} {listed : List Exchange}
      (listing : ListingRun bucket none (.error fault) listed) :
      DeletionRun bucket (.error (.client "object_list" fault.message)) listed
  | stuck {keys batch : List String} {front rest : List (List String)} {listed taken : List Exchange} {reply : Reply}
      {fault : ServiceFault} (listing : ListingRun bucket none (.ok keys) listed)
      (cut : Cuts Account.deletionBatch keys (front ++ batch :: rest)) (emptied : Forall₂ (TakesBatch bucket) front taken)
      (failure : (Operation.deleteObjects bucket batch).outcome reply = .error fault) :
      DeletionRun bucket (.error (.client "delete_bucket" fault.message))
        (listed ++ taken ++ [⟨.deleteObjects bucket batch, reply⟩])
  | emptied {keys : List String} {batches : List (List String)} {listed taken : List Exchange} (reply : Reply)
      (listing : ListingRun bucket none (.ok keys) listed) (cut : Cuts Account.deletionBatch keys batches)
      (emptied : Forall₂ (TakesBatch bucket) batches taken) :
      DeletionRun bucket
        (((Operation.deleteBucket bucket).outcome reply).mapError fun fault => .client "delete_bucket" fault.message)
        (listed ++ taken ++ [⟨.deleteBucket bucket, reply⟩])

namespace Account

section Run

variable {a : Account} (single : a.settings.maxAttempts ≤ 1)
include single

theorem run_send_answer (call : String) {op : Operation} (c : Conversation) (reached : a.reaches op) :
    (a.send call op).run c =
      ((op.outcome (c.answer 0)).mapError fun fault => .client call fault.message, (Conversation.exchange op c).2) := by
  rw [run_send a call op c single reached, Conversation.fst_exchange_eq_answer]

variable {bucket : String} (reached : a.reaches (.deleteBucket bucket))
include reached

theorem keysFrom_runs {count : Nat} (token : Option String) {c : Conversation} (enough : c.replies.length < count) :
    ∃ result sent, ListingRun bucket token result sent ∧
      c.GoesOn sent ((a.keysFrom bucket count token).run c).2 ∧
      ((a.keysFrom bucket count token).run c).1 =
        result.mapError fun fault => .client "object_list" fault.message := by
  induction count generalizing token c with
  | zero => exact absurd enough (Nat.not_lt_zero _)
  | succ count ih =>
    have asked : (Operation.listObjects bucket token).outcome (c.answer 0) = (c.answer 0).page :=
      (c.answer 0).outcome_listObjects bucket token
    have first := Conversation.GoesOn.exchange (.listObjects bucket token) c
    rcases answered : (c.answer 0).page with fault | page
    · have ends : ∀ page, (c.answer 0).page = .ok page → ¬ page.LeadsOn := by
        intro page ok
        cases answered.symm.trans ok
      rw [run_keysFrom_of_last single reached ends, listingOutcome, answered]
      exact ⟨_, _, .failed (asked.trans answered), first, rfl⟩
    · by_cases leads : page.LeadsOn
      · have shorter : (Conversation.exchange (.listObjects bucket token) c).2.replies.length < count := by
          have inside := Conversation.lt_length_replies_of_page answered
          rw [Conversation.replies_exchange, List.length_tail]
          omega
        obtain ⟨result, sent, further, later, outcome⟩ := ih page.next shorter
        rw [run_keysFrom_of_leadsOn single reached answered leads]
        refine ⟨_, _, .next (asked.trans answered) leads further, first.append later, ?_⟩
        simp only [outcome]
        cases result <;> rfl
      · have ends : ∀ other, (c.answer 0).page = .ok other → ¬ other.LeadsOn := by
          intro other ok
          cases answered.symm.trans ok
          exact leads
        rw [run_keysFrom_of_last single reached ends, listingOutcome, answered]
        refine ⟨_, _, .last (asked.trans answered) leads, first, ?_⟩
        simp [ListingPage.keys, mapError_ok]

/-- Batches are taken in their order, all of them or those in front of one that is refused. -/
theorem deleteBatches_runs (batches : List (List String)) (c : Conversation) :
    (∃ sent, Forall₂ (TakesBatch bucket) batches sent ∧ c.GoesOn sent ((a.deleteBatches bucket batches).run c).2 ∧
        ((a.deleteBatches bucket batches).run c).1 = .ok ()) ∨
      ∃ front batch rest taken reply fault, batches = front ++ batch :: rest ∧ Forall₂ (TakesBatch bucket) front taken ∧
        (Operation.deleteObjects bucket batch).outcome reply = .error fault ∧
        c.GoesOn (taken ++ [⟨.deleteObjects bucket batch, reply⟩]) ((a.deleteBatches bucket batches).run c).2 ∧
        ((a.deleteBatches bucket batches).run c).1 = .error (.client "delete_bucket" fault.message) := by
  induction batches generalizing c with
  | nil => exact .inl ⟨[], .nil, .nil c, rfl⟩
  | cons batch rest ih =>
    have first := Conversation.GoesOn.exchange (.deleteObjects bucket batch) c
    have reaches : a.reaches (.deleteObjects bucket batch) := reached
    rw [deleteBatches, run_bind, Dialogue.run_discard, run_send_answer single "delete_bucket" c reaches]
    cases answered : (Operation.deleteObjects bucket batch).outcome (c.answer 0) with
    | error fault => exact .inr ⟨[], batch, rest, [], c.answer 0, fault, rfl, .nil, answered, first, rfl⟩
    | ok entries =>
      have takes : TakesBatch bucket batch ⟨.deleteObjects bucket batch, c.answer 0⟩ := by
        refine ⟨rfl, ?_⟩
        rw [Exchange.isSuccess, answered]
        rfl
      rcases ih (Conversation.exchange (.deleteObjects bucket batch) c).2 with
        ⟨sent, taken, later, ok⟩ | ⟨front, other, behind, sent, reply, fault, rfl, taken, failure, later, error⟩
      · exact .inl ⟨_, .cons takes taken, first.append later, ok⟩
      · exact .inr ⟨batch :: front, other, behind, _, reply, fault, rfl, .cons takes taken, failure, first.append later,
          error⟩

theorem deleteBucket_runs (c : Conversation) :
    ∃ sent, c.GoesOn sent ((a.deleteBucket bucket true).run c).2 ∧
      DeletionRun bucket ((a.deleteBucket bucket true).run c).1 sent := by
  rw [run_deleteBucket_forced, run_bind, emptyBucket, run_bind, run_objectKeys]
  obtain ⟨result, listed, listing, first, outcome⟩ := keysFrom_runs single reached none (Nat.lt_succ_self c.replies.length)
  rcases ran : (a.keysFrom bucket (c.replies.length + 1) none).run c with ⟨error | keys, middle⟩ <;>
    rw [ran] at first outcome
  · obtain ⟨fault, rfl, rfl⟩ := mapError_eq_error_iff.1 outcome.symm
    exact ⟨listed, first, .unlisted listing⟩
  · obtain rfl := mapError_eq_ok_iff.1 outcome.symm
    have cut : Cuts deletionBatch keys (batches deletionBatch keys.length keys) := cuts_batches (by decide) keys
    simp only
    rcases deleteBatches_runs single reached (batches deletionBatch keys.length keys) middle with
      ⟨taken, all, second, ok⟩ | ⟨front, batch, rest, taken, reply, fault, split, all, failure, second, error⟩
    · rcases emptied : (a.deleteBatches bucket (batches deletionBatch keys.length keys)).run middle with ⟨done, final⟩
      rw [emptied] at second ok
      obtain rfl := ok
      simp only
      rw [run_send_answer single "delete_bucket" final reached]
      exact ⟨_, (first.append second).append (.exchange _ _), .emptied (final.answer 0) listing cut all⟩
    · rcases emptied : (a.deleteBatches bucket (batches deletionBatch keys.length keys)).run middle with ⟨broken, final⟩
      rw [emptied] at second error
      obtain rfl := error
      rw [split] at cut
      refine ⟨listed ++ taken ++ [⟨.deleteObjects bucket batch, reply⟩], ?_, .stuck listing cut all failure⟩
      rw [List.append_assoc]
      exact first.append second

end Run

theorem run_deleteBucket_plain (a : Account) (bucket : String) (c : Conversation) :
    (a.deleteBucket bucket false).run c = (a.send "delete_bucket" (.deleteBucket bucket)).run c := rfl

/-- Whatever the service answers, a deletion by force asks for the pages of the listing, then for the deletion of its
keys in as few batches as there can be, and then, when each of them was answered well, for the deletion of the bucket; the
first request that fails is the last one, and its error is that of the call. Without force there is just the last
request. Each request has the next answer of the script. A bucket that cannot be addressed is not asked for. -/
theorem deleteBucket_in_order {a : Account} (single : a.settings.maxAttempts ≤ 1) (bucket : String) (c : Conversation) :
    let forced := (a.deleteBucket bucket true).run c
    let plain := (a.deleteBucket bucket false).run c
    (a.reaches (.deleteBucket bucket) →
      (∃ sent, c.GoesOn sent forced.2 ∧ DeletionRun bucket forced.1 sent) ∧
        c.GoesOn [⟨.deleteBucket bucket, c.answer 0⟩] plain.2 ∧
        plain.1 = ((Operation.deleteBucket bucket).outcome (c.answer 0)).mapError
          fun fault => .client "delete_bucket" fault.message) ∧
      (¬ a.reaches (.deleteBucket bucket) →
        (∃ text, forced = (.error (.client "object_list" text), c)) ∧
          ∃ text, plain = (.error (.client "delete_bucket" text), c)) := by
  intro forced plain
  have same : plain = (a.send "delete_bucket" (.deleteBucket bucket)).run c := run_deleteBucket_plain a bucket c
  constructor
  · intro reached
    rw [run_send_answer single "delete_bucket" c reached] at same
    refine ⟨deleteBucket_runs single reached c, ?_, ?_⟩
    · rw [same]
      exact .exchange _ _
    · rw [same]
  · intro unreached
    have unlisted : ¬ a.reaches (.listObjects bucket none) := unreached
    constructor
    · have halted : forced = (.error (.client "object_list" (unsentFault (.listObjects bucket none)).message), c) := by
        show (a.deleteBucket bucket true).run c = _
        rw [run_deleteBucket_forced, run_bind, emptyBucket, run_bind, run_objectKeys, keysFrom, run_bind,
          run_send_unsent "object_list" c unlisted]
      exact ⟨_, halted⟩
    · rw [same, run_send_unsent "delete_bucket" c unreached]
      exact ⟨_, rfl⟩

namespace Suite

/-- Three requests are enough for a bucket of one object. -/
theorem deleteBucket_in_order_suite :
    DeletionRun "suite" (.ok ())
      [⟨.listObjects "suite" none, page⟩, ⟨.deleteObjects "suite" ["k"], emptied⟩, ⟨.deleteBucket "suite", deleted⟩] := by
  have single : account.settings.maxAttempts ≤ 1 := by decide
  obtain ⟨⟨sent, goesOn, course⟩, -⟩ :=
    (deleteBucket_in_order single "suite" ⟨⟨[], []⟩, [page, emptied, deleted], []⟩).1 (reaches_suite rfl rfl)
  rw [run_deleteBucket emptied_eq] at goesOn course
  obtain rfl : deletion emptied = sent := goesOn.appended
  exact course

end Suite

end Account

end BucketBench
