import BucketBench.Proofs.Service.Stop
import BucketBench.Service.Buckets
import Mathlib.Data.List.Forall2

set_option autoImplicit false

namespace BucketBench

open List (Forall₂)

inductive Emptying (bucket : String) : String → Operation → Prop where
  | list (token : Option String) : Emptying bucket "object_list" (.listObjects bucket token)
  | delete (keys : List String) : Emptying bucket "delete_bucket" (.deleteObjects bucket keys)

inductive Clearing (bucket : String) : String → Operation → Prop where
  | emptying {call : String} {op : Operation} (h : Emptying bucket call op) : Clearing bucket call op
  | deletion : Clearing bucket "delete_bucket" (.deleteBucket bucket)

structure Cleared (bucket : String) (sent : List Exchange) : Prop where
  success : ∀ e ∈ sent, e.isSuccess = true
  last : ∃ front reply, sent = front ++ [⟨.deleteBucket bucket, reply⟩] ∧
    ∀ e ∈ front, ∃ call, Emptying bucket call e.operation

/-- The exchanges of deleting buckets by force, a part for each bucket that was begun. -/
inductive Cleans (a : Account) : List String → Except Error Unit → List (List Exchange) → Prop where
  | done : Cleans a [] (.ok ()) []
  | next {bucket : String} {rest : List String} {outcome : Except Error Unit} {part : List Exchange}
      {parts : List (List Exchange)} (cleared : Cleared bucket part) (later : Cleans a rest outcome parts) :
      Cleans a (bucket :: rest) outcome (part :: parts)
  | stopped {bucket : String} {fault : Error} {part : List Exchange} (rest : List String)
      (stops : UpToFailure a (Clearing bucket) (.error fault : Except Error Unit) part) :
      Cleans a (bucket :: rest) (.error fault) [part]

theorem Cleared.asked {bucket : String} {sent : List Exchange} (h : Cleared bucket sent) {e : Exchange} (he : e ∈ sent) :
    ∃ call, Clearing bucket call e.operation := by
  obtain ⟨front, reply, rfl, emptying⟩ := h.last
  rcases List.mem_append.1 he with he | he
  · obtain ⟨call, h⟩ := emptying e he
    exact ⟨call, .emptying h⟩
  · rw [List.mem_singleton.1 he]
    exact ⟨_, .deletion⟩

namespace Cleans

variable {a : Account} {buckets : List String} {outcome : Except Error Unit} {parts : List (List Exchange)}

theorem stops (h : Cleans a buckets outcome parts) :
    UpToFailure a (fun call op => ∃ bucket ∈ buckets, Clearing bucket call op) outcome parts.flatten := by
  induction h with
  | done => exact .done ()
  | @next bucket rest outcome part parts cleared _ ih =>
    have first : UpToFailure a (fun call op => ∃ b ∈ bucket :: rest, Clearing b call op) (.ok ()) part := by
      refine .of_successes () fun e he => ?_
      obtain ⟨call, asked⟩ := cleared.asked he
      exact ⟨cleared.success e he, call, bucket, List.mem_cons_self, asked⟩
    rw [List.flatten_cons]
    exact first.append (ih.mono fun _ _ ⟨b, hb, asked⟩ => ⟨b, List.mem_cons_of_mem _ hb, asked⟩)
  | stopped rest stops =>
    rw [List.flatten_singleton]
    exact stops.mono fun call op asked => ⟨_, List.mem_cons_self, asked⟩

/-- The parts are about the buckets in their order. -/
theorem inTurn (h : Cleans a buckets outcome parts) :
    Forall₂ (fun bucket part => ∀ e ∈ part, ∃ call, Clearing bucket call e.operation) (buckets.take parts.length)
      parts := by
  induction h with
  | done => exact .nil
  | next cleared _ ih => exact .cons (fun e he => cleared.asked he) ih
  | stopped rest stops => exact .cons (fun e he => stops.asked he) .nil

/-- A bucket is not begun before the one in front of it is deleted. -/
theorem finished (h : Cleans a buckets outcome parts) :
    Forall₂ Cleared (buckets.take (parts.length - 1)) parts.dropLast := by
  induction h with
  | done => exact .nil
  | @next bucket rest outcome part parts cleared later ih =>
    cases parts with
    | nil => exact .nil
    | cons second parts => exact .cons cleared ih
  | stopped => exact .nil

theorem complete (h : Cleans a buckets (.ok ()) parts) : Forall₂ Cleared buckets parts := by
  generalize ho : (.ok () : Except Error Unit) = outcome at h
  induction h with
  | done => exact .nil
  | next cleared _ ih => exact .cons cleared (ih ho)
  | stopped => cases ho

end Cleans

structure CleansUp (a : Account) (chosen : List String) (outcome : Except Error (List String))
    (parts : List (List Exchange)) : Prop where
  own : ∀ e ∈ parts.flatten, ∃ bucket ∈ chosen, ∃ call, Clearing bucket call e.operation
  inTurn : Forall₂ (fun bucket part => ∀ e ∈ part, ∃ call, Clearing bucket call e.operation)
    (chosen.take parts.length) parts
  finished : Forall₂ Cleared (chosen.take (parts.length - 1)) parts.dropLast
  stops : ∀ front e back fault, parts.flatten = front ++ e :: back → e.operation.outcome e.reply = .error fault →
    back = [] ∧ ∃ call, (∃ bucket ∈ chosen, Clearing bucket call e.operation) ∧
      outcome = .error (.client call fault.message)
  cause : ∀ fault, outcome = .error fault → (∃ e ∈ parts.flatten, e.isSuccess = false) ∨
    ∃ call op, (∃ bucket ∈ chosen, Clearing bucket call op) ∧ ¬ a.reaches op
  complete : ∀ done, outcome = .ok done → done = chosen ∧ Forall₂ Cleared chosen parts

theorem Cleans.cleansUp {a : Account} {chosen : List String} {outcome : Except Error Unit} {parts : List (List Exchange)}
    (h : Cleans a chosen outcome parts) : CleansUp a chosen (outcome.map fun _ => chosen) parts where
  own e he := by
    obtain ⟨call, bucket, hb, asked⟩ := h.stops.asked he
    exact ⟨bucket, hb, call, asked⟩
  inTurn := h.inTurn
  finished := h.finished
  stops front e back fault split failure := by
    obtain ⟨rfl, call, asked, rfl⟩ := h.stops.last split failure
    exact ⟨rfl, call, asked, rfl⟩
  cause fault failure := by
    cases outcome with
    | error fault' => exact h.stops.cause rfl
    | ok _ => cases failure
  complete done ok := by
    cases outcome with
    | error fault => cases ok
    | ok _ =>
      cases ok
      exact ⟨rfl, h.complete⟩

namespace Account

theorem run_deleteBucket_forced (a : Account) (bucket : String) (c : Conversation) :
    (a.deleteBucket bucket true).run c =
      (a.emptyBucket bucket >>= fun _ => a.send "delete_bucket" (.deleteBucket bucket)).run c := rfl

section Run

variable {a : Account} (single : a.settings.maxAttempts ≤ 1)
include single

theorem keysFrom_stops (bucket : String) (pages : Nat) (token : Option String) :
    (a.keysFrom bucket pages token).StopsAtFailure a (Emptying bucket) := by
  induction pages generalizing token with
  | zero => exact .pure _
  | succ pages ih =>
    refine .bind (.send single (.list token)) fun page => ?_
    split
    · exact .bind (ih _) fun _ => .pure _
    · exact .pure _

theorem deleteBatches_stops (bucket : String) (batches : List (List String)) :
    (a.deleteBatches bucket batches).StopsAtFailure a (Emptying bucket) := by
  induction batches with
  | nil => exact .pure _
  | cons batch rest ih => exact .bind (.discard (.send single (.delete batch))) fun _ => ih

theorem emptyBucket_stops (bucket : String) : (a.emptyBucket bucket).StopsAtFailure a (Emptying bucket) := by
  refine .bind ?_ fun keys => deleteBatches_stops single bucket _
  exact .bind .get fun _ => keysFrom_stops single bucket _ none

/-- Deleting a bucket by force stops at the first failure, and when it succeeds its last request, and no other, was for
the deletion. -/
theorem deleteBucket_clears (bucket : String) (c : Conversation) :
    ∃ sent, ((a.deleteBucket bucket true).run c).2.exchanges = c.exchanges ++ sent ∧
      UpToFailure a (Clearing bucket) ((a.deleteBucket bucket true).run c).1 sent ∧
      (((a.deleteBucket bucket true).run c).1 = .ok () → Cleared bucket sent) := by
  obtain ⟨sent, appended, stops⟩ := emptyBucket_stops single bucket c
  rw [run_deleteBucket_forced, run_bind]
  rcases emptied : (a.emptyBucket bucket).run c with ⟨fault | ⟨⟩, middle⟩
  · rw [emptied] at appended stops
    exact ⟨sent, appended, stops.of_error.mono fun _ _ => .emptying, nofun⟩
  · rw [emptied] at appended stops
    obtain ⟨more, further, stops', answered⟩ := Dialogue.StopsAtFailure.send_cases single Clearing.deletion middle
    -- emptying was done with, so an answer to the deletion means that everything in front of it succeeded
    have all := (stops.mono fun _ _ => Clearing.emptying).append stops'
    refine ⟨sent ++ more, by rw [further, appended, List.append_assoc], all, fun ok => ⟨?_, ?_⟩⟩
    · rw [ok] at all
      exact fun e he => all.isSuccess_of_ok he
    · obtain ⟨reply, rfl, -⟩ := answered () ok
      exact ⟨sent, reply, rfl, fun e he => stops.asked he⟩

theorem deleteBuckets_cleans (buckets : List String) (c : Conversation) :
    ∃ parts, ((a.deleteBuckets buckets).run c).2.exchanges = c.exchanges ++ parts.flatten ∧
      Cleans a buckets ((a.deleteBuckets buckets).run c).1 parts := by
  induction buckets generalizing c with
  | nil => exact ⟨[], (List.append_nil _).symm, .done⟩
  | cons bucket rest ih =>
    obtain ⟨sent, appended, stops, cleared⟩ := deleteBucket_clears single bucket c
    rw [deleteBuckets, run_bind]
    rcases deleted : (a.deleteBucket bucket true).run c with ⟨fault | ⟨⟩, middle⟩
    · rw [deleted] at appended stops
      exact ⟨[sent], by rw [List.flatten_singleton, appended], .stopped rest stops⟩
    · rw [deleted] at appended cleared
      obtain ⟨parts, further, cleans⟩ := ih middle
      refine ⟨sent :: parts, ?_, .next (cleared rfl) cleans⟩
      rw [further, appended, List.append_assoc, List.flatten_cons]

end Run

def chosen (lead : String) (listing : List (Option String)) : List String :=
  (listing.filterMap id).filter fun name => lead.toList.isPrefixOf name.toList

theorem isSome_afterLead? (lead s : List Char) : (Text.afterLead? lead s).isSome = lead.isPrefixOf s := by
  rw [Bool.eq_iff_iff, List.isPrefixOf_iff_prefix, Option.isSome_iff_exists]
  constructor
  · rintro ⟨rest, h⟩
    exact ⟨rest, (Text.eq_append_of_afterLead? h).symm⟩
  · rintro ⟨rest, rfl⟩
    exact ⟨rest, Text.afterLead?_append lead rest⟩

theorem run_deleteBucketsWith_of_listing {a : Account} {lead : String} {c middle : Conversation}
    {listing : List (Option String)} (h : (a.send "bucket_list" .listBuckets).run c = (.ok listing, middle)) :
    (a.deleteBucketsWith lead).run c =
      (((a.deleteBuckets (chosen lead listing)).run middle).1.map fun _ => chosen lead listing,
        ((a.deleteBuckets (chosen lead listing)).run middle).2) := by
  have names : (a.bucketNames).run c = (.ok (listing.filterMap id), middle) := by
    rw [bucketNames, run_bind, h]
    rfl
  simp only [deleteBucketsWith, isSome_afterLead?]
  rw [run_bind, names]
  simp only
  rw [run_bind, ← chosen]
  rcases (a.deleteBuckets (chosen lead listing)).run middle with ⟨fault | ⟨⟩, after⟩ <;> rfl

theorem run_deleteBucketsWith_of_error {a : Account} {lead : String} {c middle : Conversation} {fault : Error}
    (h : (a.send "bucket_list" .listBuckets).run c = (.error fault, middle)) :
    (a.deleteBucketsWith lead).run c = (.error fault, middle) := by
  rw [deleteBucketsWith, run_bind, bucketNames, run_bind, h]

/-- Whatever the service replies, buckets are deleted by the text in front of their names like this: only buckets of the
listing whose names begin with it are ever touched, in the order of the listing and each after the one before is
deleted; a request that fails is the last one, and its error is that of the run, which fails for no other reason than
that or a request without a place to send it to; and a run that succeeds has deleted all of them, and returns their
names. Without a listing nothing else is asked. -/
theorem deleteBucketsWith_cleansUp {a : Account} (single : a.settings.maxAttempts ≤ 1) (lead : String)
    (c : Conversation) :
    let outcome := ((a.deleteBucketsWith lead).run c).1
    ∃ sent, ((a.deleteBucketsWith lead).run c).2.exchanges = c.exchanges ++ sent ∧
      ((sent = [] ∧ ¬ a.reaches .listBuckets ∧ ∃ fault, outcome = .error fault) ∨
        (∃ reply fault, sent = [⟨.listBuckets, reply⟩] ∧ Operation.listBuckets.outcome reply = .error fault ∧
          outcome = .error (.client "bucket_list" fault.message)) ∨
        ∃ reply listing parts, sent = ⟨.listBuckets, reply⟩ :: parts.flatten ∧
          Operation.listBuckets.outcome reply = .ok listing ∧ CleansUp a (chosen lead listing) outcome parts) := by
  obtain ⟨-, reply, middle, appended, run⟩ | ⟨unreached, fault, run⟩ := a.send_cases "bucket_list" .listBuckets c single
  · cases listed : Operation.listBuckets.outcome reply with
    | error fault =>
      rw [listed] at run
      rw [run_deleteBucketsWith_of_error run]
      exact ⟨_, appended, .inr (.inl ⟨reply, fault, rfl, listed, rfl⟩)⟩
    | ok listing =>
      rw [listed] at run
      rw [run_deleteBucketsWith_of_listing run]
      obtain ⟨parts, further, cleans⟩ := deleteBuckets_cleans single (chosen lead listing) middle
      refine ⟨⟨.listBuckets, reply⟩ :: parts.flatten, ?_, .inr (.inr ⟨reply, listing, parts, rfl, listed, ?_⟩)⟩
      · rw [further, appended, List.append_assoc, List.singleton_append]
      · exact cleans.cleansUp
  · rw [run_deleteBucketsWith_of_error run]
    exact ⟨[], (List.append_nil _).symm, .inl ⟨rfl, unreached, fault, rfl⟩⟩

/-! ## Two buckets, one of which is somebody else's -/

theorem run_objectKeys (a : Account) (bucket : String) (c : Conversation) :
    (a.objectKeys bucket).run c = (a.keysFrom bucket (c.replies.length + 1) none).run c := by
  rw [objectKeys, run_bind, run_get]

namespace Suite

def account : Account := ⟨{ endpoint := "http://storage" }⟩

def listed : Reply := .answered ⟨200, [],
  "<ListAllMyBucketsResult><Buckets><Bucket><Name>a</Name></Bucket><Bucket><Name>suite</Name></Bucket></Buckets>" ++
    "</ListAllMyBucketsResult>"⟩

def page : Reply := .answered ⟨200, [],
  "<ListBucketResult><Contents><Key>k</Key></Contents></ListBucketResult>"⟩

def emptied : Reply := .answered ⟨200, [], "<DeleteResult></DeleteResult>"⟩

def deleted : Reply := .answered ⟨204, [], ""⟩

def conversation : Conversation := ⟨⟨[], []⟩, [listed, page, emptied, deleted], []⟩

def exchanges : List Exchange :=
  [⟨.listBuckets, listed⟩, ⟨.listObjects "suite" none, page⟩, ⟨.deleteObjects "suite" ["k"], emptied⟩,
   ⟨.deleteBucket "suite", deleted⟩]

set_option maxRecDepth 2000 in
theorem listing_eq : Operation.listBuckets.outcome listed = .ok [some "a", some "suite"] := by
  -- the characters of the text are told one by one: it takes long to decode them from its bytes
  obtain ⟨text, same, chars⟩ : ∃ text, listed = .answered ⟨200, [], text⟩ ∧ text.toList = _ :=
    ⟨_, rfl, String.toList_append.trans (congrArg₂ (· ++ ·) String.toList_ofList String.toList_ofList)⟩
  have read : Xml.Element.root? text = some ⟨⟨"", "ListAllMyBucketsResult"⟩,
      [.element ⟨"", "Buckets"⟩
        [.element ⟨"", "Bucket"⟩ [.element ⟨"", "Name"⟩ [.text ['a']]],
         .element ⟨"", "Bucket"⟩ [.element ⟨"", "Name"⟩ [.text ['s', 'u', 'i', 't', 'e']]]]]⟩ := by
    rw [Xml.Element.root?, Xml.parts, Xml.Token.scan, chars]
    rfl
  rw [same]
  refine Operation.outcome_of_root read rfl ?_
  rw [Operation.accept?, Response.bucketNames?, Xml.Element.expect?, read]
  rfl

theorem chosen_eq : chosen "su" [some "a", some "suite"] = ["suite"] := by rfl

theorem isHostLabels_region : isHostLabels account.settings.region = true := by
  have one : Text.split '.' account.settings.region = ["us-east-1"] := by rfl
  rw [isHostLabels, one]
  simp only [isHostLabel, List.all_cons, List.all_nil, String.all_bool_eq]
  decide +kernel

theorem reaches_listBuckets : account.reaches .listBuckets := by
  have address : Address.ofText? account.settings.endpoint = some ⟨false, "storage", ""⟩ := by rfl
  have place : account.site? none = some ⟨"storage", ""⟩ := by
    rw [site?, address]
    show (if isHostLabels account.settings.region then _ else _) = _
    rw [isHostLabels_region]
    rfl
  exact ⟨rfl, by rw [Operation.bucket?, place]; rfl⟩

theorem reaches_suite {op : Operation} (hb : op.bucket? = some "suite") (complete : op.isComplete = true) :
    account.reaches op := by
  have place : (account.site? (some "suite")).isSome = true := by decide +kernel
  exact ⟨complete, by rw [hb, place]⟩

theorem run_send_ok {call : String} {op : Operation} {reply : Reply} {answer : op.Answer} (reached : account.reaches op)
    (h : op.outcome reply = .ok answer) (replies : List Reply) (exchanges : List Exchange) :
    (account.send call op).run ⟨⟨[], []⟩, reply :: replies, exchanges⟩ =
      (.ok answer, ⟨⟨[], []⟩, replies, exchanges ++ [⟨op, reply⟩]⟩) := by
  have single : account.settings.maxAttempts ≤ 1 := by decide
  rw [run_send_of_reply single reached, h]
  rfl

set_option maxRecDepth 2000 in
theorem page_eq : (Operation.listObjects "suite" none).outcome page = .ok ⟨[some "k"], none, none⟩ := by
  obtain ⟨text, same, chars⟩ : ∃ text, page = .answered ⟨200, [], text⟩ ∧ text.toList = _ :=
    ⟨_, rfl, String.toList_ofList⟩
  have read : Xml.Element.root? text = some ⟨⟨"", "ListBucketResult"⟩,
      [.element ⟨"", "Contents"⟩ [.element ⟨"", "Key"⟩ [.text ['k']]]]⟩ := by
    rw [Xml.Element.root?, Xml.parts, Xml.Token.scan, chars]
    rfl
  rw [same]
  refine Operation.outcome_of_root read rfl ?_
  rw [Operation.accept?, Response.listingPage?, Xml.Element.expect?, read]
  rfl

theorem emptied_eq : (Operation.deleteObjects "suite" ["k"]).outcome emptied = .ok [] := by rfl

theorem deleted_eq : (Operation.deleteBucket "suite").outcome deleted = .ok () := by rfl

theorem run_emptyBucket {first answer : Reply} {later : List Reply} {entries : List UndeletedObject}
    (found : (Operation.listObjects "suite" none).outcome first = .ok ⟨[some "k"], none, none⟩)
    (done : (Operation.deleteObjects "suite" ["k"]).outcome answer = .ok entries) (exchanges : List Exchange) :
    (account.emptyBucket "suite").run ⟨⟨[], []⟩, first :: answer :: later, exchanges⟩ =
      (.ok (), ⟨⟨[], []⟩, later,
        exchanges ++ [⟨.listObjects "suite" none, first⟩] ++ [⟨.deleteObjects "suite" ["k"], answer⟩]⟩) := by
  rw [emptyBucket, run_bind, run_objectKeys, keysFrom, run_bind, run_send_ok (reaches_suite rfl rfl) found]
  show (account.deleteBatches "suite" [["k"]]).run _ = _
  rw [deleteBatches, run_bind, Dialogue.run_discard, run_send_ok (reaches_suite rfl rfl) done]
  rfl

theorem run_deleteBucketsWith_of_replies {first second third fourth : Reply} {entries : List UndeletedObject}
    (buckets : Operation.listBuckets.outcome first = .ok [some "a", some "suite"])
    (found : (Operation.listObjects "suite" none).outcome second = .ok ⟨[some "k"], none, none⟩)
    (emptied : (Operation.deleteObjects "suite" ["k"]).outcome third = .ok entries)
    (done : (Operation.deleteBucket "suite").outcome fourth = .ok ()) :
    (account.deleteBucketsWith "su").run ⟨⟨[], []⟩, [first, second, third, fourth], []⟩ =
      (.ok ["suite"], ⟨⟨[], []⟩, [],
        [⟨.listBuckets, first⟩, ⟨.listObjects "suite" none, second⟩, ⟨.deleteObjects "suite" ["k"], third⟩,
         ⟨.deleteBucket "suite", fourth⟩]⟩) := by
  rw [run_deleteBucketsWith_of_listing (run_send_ok reaches_listBuckets buckets _ _), chosen_eq, deleteBuckets, run_bind,
    run_deleteBucket_forced, run_bind, run_emptyBucket found emptied]
  simp only
  rw [run_send_ok (reaches_suite rfl rfl) done]
  rfl

theorem run_deleteBucketsWith :
    (account.deleteBucketsWith "su").run conversation = (.ok ["suite"], ⟨⟨[], []⟩, [], exchanges⟩) :=
  run_deleteBucketsWith_of_replies listing_eq page_eq emptied_eq deleted_eq

/-- The other bucket is left alone, and the one of the suite is emptied and deleted. -/
theorem deleteBucketsWith_cleansUp_suite :
    ∃ parts, exchanges = ⟨.listBuckets, listed⟩ :: parts.flatten ∧ CleansUp account ["suite"] (.ok ["suite"]) parts := by
  have single : account.settings.maxAttempts ≤ 1 := by decide
  obtain ⟨sent, appended, cases⟩ := deleteBucketsWith_cleansUp single "su" conversation
  rw [run_deleteBucketsWith] at appended cases
  obtain rfl : exchanges = sent := appended
  obtain ⟨none, -⟩ | ⟨reply, fault, -, -, failed⟩ | ⟨reply, found, parts, same, answered, cleansUp⟩ := cases
  · cases none
  · cases failed
  · obtain ⟨rfl, -⟩ : listed = reply ∧ _ := by simpa [exchanges] using same
    obtain rfl := Except.ok.inj (listing_eq.symm.trans answered)
    rw [chosen_eq] at cleansUp
    exact ⟨parts, same, cleansUp⟩

end Suite

end Account

end BucketBench
