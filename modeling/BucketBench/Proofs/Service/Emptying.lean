import BucketBench.Proofs.Service.Cleanup
import BucketBench.Proofs.Service.Success

set_option autoImplicit false

/-!
# What a deletion by force leaves behind

A bucket that was deleted by force was listed, every key of the listing was in a request for deletion that was answered
well, and the bucket was deleted last. But an answer to such a request may name keys that are still there, and those are
passed over: `deleteBucket_of_forced`.
-/

namespace BucketBench

namespace Exchange

/-- The keys of a page in the listing of a bucket; a request that failed gives none. -/
def listed (bucket : String) : Exchange → List String
  | ⟨.listObjects other token, reply⟩ =>
    match (Operation.listObjects other token).outcome reply with
    | .ok page => if other = bucket then page.keys else []
    | .error _ => []
  | _ => []

/-- The keys that the service was asked to delete from a bucket, when it answered. -/
def taken (bucket : String) : Exchange → List String
  | ⟨.deleteObjects other keys, reply⟩ =>
    match (Operation.deleteObjects other keys).outcome reply with
    | .ok _ => if other = bucket then keys else []
    | .error _ => []
  | _ => []

def undeleted : Exchange → List String
  | ⟨.deleteObjects bucket keys, reply⟩ =>
    match (Operation.deleteObjects bucket keys).outcome reply with
    | .ok entries => entries.filterMap (·.key)
    | .error _ => []
  | _ => []

variable (e : Exchange) (bucket key : String)

/-- A key was in a request for deletion whose answer says nothing against it. -/
def Removes : Prop := key ∈ e.taken bucket ∧ key ∉ e.undeleted

def Leaves : Prop := key ∈ e.taken bucket ∧ key ∈ e.undeleted

theorem outcome_ne_ok {e : Exchange} (failed : e.isSuccess = false) (answer : e.operation.Answer) :
    e.operation.outcome e.reply ≠ .ok answer := by
  intro ok
  rw [isSuccess, ok] at failed
  cases failed

theorem listed_of_failed {e : Exchange} (failed : e.isSuccess = false) : e.listed bucket = [] := by
  unfold listed
  split
  · split
    · rename_i ok
      exact absurd ok (outcome_ne_ok failed _)
    · rfl
  · rfl

theorem taken_of_failed {e : Exchange} (failed : e.isSuccess = false) : e.taken bucket = [] := by
  unfold taken
  split
  · split
    · rename_i ok
      exact absurd ok (outcome_ne_ok failed _)
    · rfl
  · rfl

end Exchange

def listing (bucket : String) (sent : List Exchange) : List String := sent.flatMap (·.listed bucket)

def takenKeys (bucket : String) (sent : List Exchange) : List String := sent.flatMap (·.taken bucket)

namespace Account

/-- A run that lists and deletes nothing but these keys of a bucket. -/
structure Handles (bucket : String) (listed taken : List String) (sent : List Exchange) : Prop where
  listed : listing bucket sent = listed
  taken : takenKeys bucket sent = taken

variable {bucket : String} {l l' t t' : List String} {sent more : List Exchange}

theorem Handles.nil : Handles bucket [] [] [] := ⟨rfl, rfl⟩

theorem Handles.append (h : Handles bucket l t sent) (h' : Handles bucket l' t' more) :
    Handles bucket (l ++ l') (t ++ t') (sent ++ more) :=
  ⟨by rw [listing, List.flatMap_append, ← listing, ← listing, h.listed, h'.listed],
    by rw [takenKeys, List.flatMap_append, ← takenKeys, ← takenKeys, h.taken, h'.taken]⟩

theorem Handles.of_page {token : Option String} {page : ListingPage}
    (h : Answered (.listObjects bucket token) page sent) : Handles bucket page.keys [] sent := by
  obtain ⟨reply, ok, listed⟩ := h.flatMap_eq fun _ => Exchange.listed_of_failed bucket
  obtain ⟨reply', ok', taken⟩ := h.flatMap_eq fun _ => Exchange.taken_of_failed bucket
  refine ⟨?_, taken⟩
  rw [listing, listed]
  simp only [Exchange.listed, ok, if_true]

theorem Handles.of_batch {keys : List String} {entries : List UndeletedObject}
    (h : Answered (.deleteObjects bucket keys) entries sent) : Handles bucket [] keys sent := by
  obtain ⟨reply, ok, listed⟩ := h.flatMap_eq fun _ => Exchange.listed_of_failed bucket
  obtain ⟨reply', ok', taken⟩ := h.flatMap_eq fun _ => Exchange.taken_of_failed bucket
  refine ⟨listed, ?_⟩
  rw [takenKeys, taken]
  simp only [Exchange.taken, ok', if_true]

theorem Handles.of_deleteBucket (h : Answered (.deleteBucket bucket) () sent) : Handles bucket [] [] sent := by
  obtain ⟨_, _, listed⟩ := h.flatMap_eq fun _ => Exchange.listed_of_failed bucket
  obtain ⟨_, _, taken⟩ := h.flatMap_eq fun _ => Exchange.taken_of_failed bucket
  exact ⟨listed, taken⟩

theorem keysFrom_shows (a : Account) (bucket : String) (pages : Nat) (token : Option String) :
    (a.keysFrom bucket pages token).Shows fun keys sent => Handles bucket keys [] sent := by
  induction pages generalizing token with
  | zero =>
    intro c keys after h
    cases h
    exact ⟨[], (List.append_nil _).symm, .nil⟩
  | succ pages ih =>
    -- what the pages behind the first one show, before their keys are put behind its own
    let later (page : ListingPage) (keys : List String) (sent : List Exchange) : Prop :=
      ∃ rest, keys = page.keys ++ rest ∧ Handles bucket rest [] sent
    refine Dialogue.Shows.bind (Q := later) (.send a "object_list" (.listObjects bucket token)) (fun page => ?_) ?_
    · split
      · refine .bind (ih _) (fun rest => .pure (page.keys ++ rest)) ?_
        rintro rest keys first second handles ⟨rfl, rfl⟩
        exact ⟨rest, rfl, by rwa [List.append_nil]⟩
      · intro c keys after h
        cases h
        exact ⟨[], (List.append_nil _).symm, [], (List.append_nil _).symm, .nil⟩
    · rintro page keys first second answered ⟨rest, rfl, handles⟩
      exact (Handles.of_page answered).append handles

theorem deleteBatches_shows (a : Account) (bucket : String) (batches : List (List String)) :
    (a.deleteBatches bucket batches).Shows fun _ sent => Handles bucket [] batches.flatten sent := by
  induction batches with
  | nil =>
    intro c x after h
    cases h
    exact ⟨[], (List.append_nil _).symm, .nil⟩
  | cons batch rest ih =>
    have first : Dialogue.Shows (discard (a.send "delete_bucket" (.deleteObjects bucket batch)))
        fun _ sent => Handles bucket [] batch sent := by
      refine .bind (.send a "delete_bucket" (.deleteObjects bucket batch)) (fun _ => .pure PUnit.unit) ?_
      rintro entries x first second answered ⟨-, rfl⟩
      rw [List.append_nil]
      exact .of_batch answered
    refine .bind first (fun _ => ih) ?_
    intro _ _ first second handles later
    exact handles.append later

theorem emptyBucket_shows (a : Account) (bucket : String) :
    (a.emptyBucket bucket).Shows fun _ sent => takenKeys bucket sent = listing bucket sent := by
  have keys : (a.objectKeys bucket).Shows fun keys sent => Handles bucket keys [] sent := by
    refine .bind .get (fun c => keysFrom_shows a bucket _ none) ?_
    rintro c keys first second rfl handles
    exact handles
  refine .bind keys (fun keys => deleteBatches_shows a bucket _) ?_
  intro keys _ first second listed deleted
  -- cutting the listing into batches loses no key and keeps their order
  rw [flatten_batches (by decide) _ _ (Nat.le_refl _)] at deleted
  have both := listed.append deleted
  rw [both.taken, both.listed, List.nil_append, List.append_nil]

/-! ## Keys that are gone -/

theorem mem_takenKeys_iff {key : String} : key ∈ takenKeys bucket sent ↔ ∃ e ∈ sent, key ∈ e.taken bucket :=
  List.mem_flatMap

/-- A request is known by any key that it takes, when no key is taken twice. -/
theorem eq_of_mem_taken {key : String} (nodup : (takenKeys bucket sent).Nodup) {e f : Exchange} (he : e ∈ sent)
    (hf : f ∈ sent) (taken : key ∈ e.taken bucket) (taken' : key ∈ f.taken bucket) : e = f := by
  induction sent with
  | nil => cases he
  | cons first rest ih =>
    rw [takenKeys, List.flatMap_cons, ← takenKeys, List.nodup_append] at nodup
    obtain ⟨-, later, apart⟩ := nodup
    have only : ∀ g ∈ rest, key ∈ g.taken bucket → key ∉ first.taken bucket := fun g hg behind here =>
      apart key here key (mem_takenKeys_iff.2 ⟨g, hg, behind⟩) rfl
    rcases List.mem_cons.1 he with rfl | he'
    · rcases List.mem_cons.1 hf with rfl | hf'
      · rfl
      · exact absurd taken (only f hf' taken')
    · rcases List.mem_cons.1 hf with rfl | hf'
      · exact absurd taken' (only e he' taken)
      · exact ih later he' hf'

theorem exists_removes_or_leaves {key : String} (mem : key ∈ takenKeys bucket sent) :
    (∃ e ∈ sent, e.Removes bucket key) ∨ ∃ e ∈ sent, e.Leaves bucket key := by
  obtain ⟨e, he, taken⟩ := mem_takenKeys_iff.1 mem
  by_cases left : key ∈ e.undeleted
  · exact Or.inr ⟨e, he, taken, left⟩
  · exact Or.inl ⟨e, he, taken, left⟩

theorem mem_takenKeys_of_leaves {key : String} (leaves : ∃ e ∈ sent, e.Leaves bucket key) :
    key ∈ takenKeys bucket sent := by
  obtain ⟨e, he, taken, -⟩ := leaves
  exact mem_takenKeys_iff.2 ⟨e, he, taken⟩

theorem removes_all_iff :
    (∀ key ∈ takenKeys bucket sent, ∃ e ∈ sent, e.Removes bucket key) ↔
      ∀ key, (∃ e ∈ sent, e.Leaves bucket key) → ∃ e ∈ sent, e.Removes bucket key := by
  constructor
  · intro removed key leaves
    exact removed key (mem_takenKeys_of_leaves leaves)
  · intro again key mem
    obtain removes | leaves := exists_removes_or_leaves mem
    · exact removes
    · exact again key leaves

theorem removes_all_iff_of_nodup (nodup : (takenKeys bucket sent).Nodup) :
    (∀ key ∈ takenKeys bucket sent, ∃ e ∈ sent, e.Removes bucket key) ↔
      ∀ key, ¬ ∃ e ∈ sent, e.Leaves bucket key := by
  rw [removes_all_iff]
  constructor
  · intro again key leaves
    obtain ⟨f, hf, taken, free⟩ := again key leaves
    obtain ⟨e, he, taken', left⟩ := leaves
    -- only one request takes the key, so the one that removes it is the one that leaves it
    obtain rfl := eq_of_mem_taken nodup he hf taken' taken
    exact free left
  · intro none key leaves
    exact absurd leaves (none key)

/-- A bucket that was deleted by force was deleted last, when every key of its listing had been in a request for
deletion that was answered. All the keys are gone, as far as the answers say, exactly when each key that one answer
names as not deleted is taken by a request whose answer does not name it; when no key is listed twice, exactly when no
answer names a key that it was asked to delete. -/
theorem deleteBucket_of_forced {a : Account} {bucket : String} {c after : Conversation}
    (ok : (a.deleteBucket bucket true).run c = (.ok (), after)) :
    ∃ sent, after.exchanges = c.exchanges ++ sent ∧ takenKeys bucket sent = listing bucket sent ∧
      (∃ front reply, sent = front ++ [⟨.deleteBucket bucket, reply⟩] ∧
        (Operation.deleteBucket bucket).outcome reply = .ok ()) ∧
      ((∀ key ∈ listing bucket sent, ∃ e ∈ sent, e.Removes bucket key) ↔
        ∀ key, (∃ e ∈ sent, e.Leaves bucket key) → ∃ e ∈ sent, e.Removes bucket key) ∧
      ((listing bucket sent).Nodup →
        ((∀ key ∈ listing bucket sent, ∃ e ∈ sent, e.Removes bucket key) ↔
          ∀ key, ¬ ∃ e ∈ sent, e.Leaves bucket key)) := by
  rw [run_deleteBucket_forced, run_bind] at ok
  rcases emptied : (a.emptyBucket bucket).run c with ⟨fault | ⟨⟩, middle⟩
  · rw [emptied] at ok
    cases ok
  rw [emptied] at ok
  obtain ⟨first, appended, same⟩ := emptyBucket_shows a bucket c () middle emptied
  obtain ⟨second, further, answered⟩ := Dialogue.Shows.send a "delete_bucket" (.deleteBucket bucket) middle () after ok
  have both := Handles.append ⟨rfl, same⟩ (Handles.of_deleteBucket answered)
  have all : takenKeys bucket (first ++ second) = listing bucket (first ++ second) := both.taken.trans both.listed.symm
  refine ⟨first ++ second, by rw [further, appended, List.append_assoc], all, ?_, ?_⟩
  · obtain ⟨failed, reply, rfl, -, done⟩ := answered
    exact ⟨first ++ failed, reply, (List.append_assoc _ _ _).symm, done⟩
  · rw [← all]
    exact ⟨removes_all_iff, removes_all_iff_of_nodup⟩

namespace Suite

def kept : Reply := .answered ⟨200, [],
  "<DeleteResult><Error><Key>k</Key><Code>AccessDenied</Code></Error></DeleteResult>"⟩

def deletion (answer : Reply) : List Exchange :=
  [⟨.listObjects "suite" none, page⟩, ⟨.deleteObjects "suite" ["k"], answer⟩, ⟨.deleteBucket "suite", deleted⟩]

theorem run_deleteBucket_of_replies {first answer last : Reply} {entries : List UndeletedObject}
    (found : (Operation.listObjects "suite" none).outcome first = .ok ⟨[some "k"], none, none⟩)
    (emptied : (Operation.deleteObjects "suite" ["k"]).outcome answer = .ok entries)
    (done : (Operation.deleteBucket "suite").outcome last = .ok ()) :
    (account.deleteBucket "suite" true).run ⟨⟨[], []⟩, [first, answer, last], []⟩ =
      (.ok (), ⟨⟨[], []⟩, [],
        [⟨.listObjects "suite" none, first⟩, ⟨.deleteObjects "suite" ["k"], answer⟩, ⟨.deleteBucket "suite", last⟩]⟩) := by
  rw [run_deleteBucket_forced, run_bind, run_emptyBucket found emptied]
  simp only
  rw [run_send_ok (reaches_suite rfl rfl) done]
  rfl

theorem run_deleteBucket {answer : Reply} {entries : List UndeletedObject}
    (done : (Operation.deleteObjects "suite" ["k"]).outcome answer = .ok entries) :
    (account.deleteBucket "suite" true).run ⟨⟨[], []⟩, [page, answer, deleted], []⟩ =
      (.ok (), ⟨⟨[], []⟩, [], deletion answer⟩) :=
  run_deleteBucket_of_replies page_eq done deleted_eq

set_option maxRecDepth 2000 in
theorem kept_eq :
    (Operation.deleteObjects "suite" ["k"]).outcome kept = .ok [⟨some "k", some "AccessDenied", none⟩] := by
  obtain ⟨text, same, chars⟩ : ∃ text, kept = .answered ⟨200, [], text⟩ ∧ text.toList = _ :=
    ⟨_, rfl, String.toList_ofList⟩
  have read : Xml.Element.root? text = some ⟨⟨"", "DeleteResult"⟩,
      [.element ⟨"", "Error"⟩
        [.element ⟨"", "Key"⟩ [.text ['k']],
         .element ⟨"", "Code"⟩ [.text ['A', 'c', 'c', 'e', 's', 's', 'D', 'e', 'n', 'i', 'e', 'd']]]]⟩ := by
    rw [Xml.Element.root?, Xml.parts, Xml.Token.scan, chars]
    rfl
  rw [same]
  refine Operation.outcome_of_root read rfl ?_
  rw [Operation.accept?, Response.undeletedObjects?, Xml.Element.expect?, read]
  rfl

theorem undeleted_of_taken {answer : Reply} {entries : List UndeletedObject}
    (done : (Operation.deleteObjects "suite" ["k"]).outcome answer = .ok entries) {e : Exchange}
    (he : e ∈ deletion answer) {key : String} (taken : key ∈ e.taken "suite") :
    e.undeleted = entries.filterMap (·.key) := by
  simp only [deletion, List.mem_cons, List.not_mem_nil, or_false] at he
  rcases he with rfl | rfl | rfl
  · cases taken
  · simp only [Exchange.undeleted, done]
  · cases taken

theorem deleteBucket_of_forced_emptied :
    ∃ sent, deletion emptied = [] ++ sent ∧ ∀ key ∈ listing "suite" sent, ∃ e ∈ sent, e.Removes "suite" key := by
  obtain ⟨sent, appended, -, -, exactly, -⟩ := deleteBucket_of_forced (run_deleteBucket emptied_eq)
  refine ⟨sent, appended, exactly.2 ?_⟩
  obtain rfl : deletion emptied = sent := appended
  rintro key ⟨e, he, taken, left⟩
  rw [undeleted_of_taken emptied_eq he taken] at left
  cases left

/-- A service can keep the object and let the bucket be deleted; the deletion by force succeeds all the same. -/
theorem not_removed_by_forced_deletion :
    ¬ ∀ (a : Account) (bucket : String) (c after : Conversation),
        (a.deleteBucket bucket true).run c = (.ok (), after) →
      ∃ sent, after.exchanges = c.exchanges ++ sent ∧
        (∀ key ∈ listing bucket sent, ∃ e ∈ sent, e.Removes bucket key) ∧
        ∃ front reply, sent = front ++ [⟨.deleteBucket bucket, reply⟩] ∧
          (Operation.deleteBucket bucket).outcome reply = .ok () := by
  intro always
  obtain ⟨sent, appended, removed, -⟩ := always account "suite" _ _ (run_deleteBucket kept_eq)
  obtain rfl : deletion kept = sent := appended
  have mem : "k" ∈ listing "suite" (deletion kept) := by
    simp only [listing, deletion, List.flatMap_cons, Exchange.listed, page_eq]
    exact List.mem_append_left _ (List.mem_singleton_self _)
  obtain ⟨e, he, taken, free⟩ := removed "k" mem
  rw [undeleted_of_taken kept_eq he taken] at free
  exact free (List.mem_singleton_self _)

end Suite

end Account

end BucketBench
