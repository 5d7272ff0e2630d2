import BucketBench.Proofs.Outcome
import BucketBench.Proofs.Text.Blank
import BucketBench.Proofs.Text.Percent
import BucketBench.Store.Connection

set_option autoImplicit false

namespace BucketBench

namespace Login

/-- The user ends at the first colon and the password at the first at sign behind it; both are percent-encoded. -/
def SpelledBy (l : Login) (uri : List Char) : Prop :=
  ∃ user password, uri = "mongodb://".toList ++ (user ++ ':' :: (password ++ '@' :: l.hostname.toList)) ∧
    ':' ∉ user ∧ '@' ∉ password ∧ Percent.Escaped user ∧ Percent.Escaped password ∧
    Percent.decode? (String.ofList user) = some l.user ∧ Percent.decode? (String.ofList password) = some l.password

theorem spelledBy_uri (l : Login) : l.SpelledBy l.uri.toList := by
  have user := Percent.escaped_segment l.user
  have password := Percent.escaped_segment l.password
  refine ⟨(Percent.segment l.user).toList, (Percent.segment l.password).toList, ?_, user.not_mem (by decide) (by decide),
    password.not_mem (by decide) (by decide), user, password, ?_, ?_⟩
  · simp [uri, scheme]
  · rw [String.ofList_toList, Percent.decode?_segment]
  · rw [String.ofList_toList, Percent.decode?_segment]

theorem ofUri?_of_spelledBy {l : Login} {uri : String} (h : l.SpelledBy uri.toList) : ofUri? uri = some l := by
  obtain ⟨user, password, spelled, colon, at_, -, -, readUser, readPassword⟩ := h
  have lead : Text.afterLead? scheme.toList uri.toList = some (user ++ ':' :: (password ++ '@' :: l.hostname.toList)) := by
    rw [spelled]
    exact Text.afterLead?_append _ _
  have first : Text.splitFirst? ':' (user ++ ':' :: (password ++ '@' :: l.hostname.toList)) =
      some (user, password ++ '@' :: l.hostname.toList) := Text.splitFirst?_eq_some_iff.2 ⟨rfl, colon⟩
  have second : Text.splitFirst? '@' (password ++ '@' :: l.hostname.toList) = some (password, l.hostname.toList) :=
    Text.splitFirst?_eq_some_iff.2 ⟨rfl, at_⟩
  simp only [ofUri?, lead, first, second, readUser, readPassword, Option.bind_eq_bind, Option.bind_some, Option.pure_def,
    String.ofList_toList]

theorem ofUri?_uri (l : Login) : ofUri? l.uri = some l := ofUri?_of_spelledBy (spelledBy_uri l)

theorem uri_injective : Function.Injective uri := by
  intro l l' same
  have read := ofUri?_uri l
  rw [same, ofUri?_uri l'] at read
  exact (Option.some.inj read).symm

end Login

theorem SecretProvider.secrets_cons (provider : SecretProvider) (id : String) (rest : List String) :
    provider.secrets (id :: rest) =
      provider.secret id >>= fun value => provider.secrets rest >>= fun more => .ok ((id, value) :: more) := rfl

theorem SecretProvider.exists_of_secrets {provider : SecretProvider} {ids : List String}
    {secrets : List (String × String)} (found : provider.secrets ids = .ok secrets) {id : String} (asked : id ∈ ids) :
    ∃ value, provider.secret id = .ok value := by
  induction ids generalizing secrets with
  | nil => cases asked
  | cons first rest ih =>
    rw [secrets_cons] at found
    obtain ⟨value, here, found⟩ := bind_eq_ok_iff.1 found
    obtain ⟨more, later, -⟩ := bind_eq_ok_iff.1 found
    rcases List.mem_cons.1 asked with rfl | asked
    · exact ⟨value, here⟩
    · exact ih later asked

namespace Connection

/-- Whatever identifiers are asked for, also repeated ones, each is found among the values with its own. -/
theorem resolved_secrets {provider : SecretProvider} {ids : List String} {secrets : List (String × String)}
    (found : provider.secrets ids = .ok secrets) {id : String} (asked : id ∈ ids) :
    resolved secrets id = provider.secret id := by
  induction ids generalizing secrets with
  | nil => cases asked
  | cons first rest ih =>
    rw [SecretProvider.secrets_cons] at found
    obtain ⟨value, here, found⟩ := bind_eq_ok_iff.1 found
    obtain ⟨more, later, e⟩ := bind_eq_ok_iff.1 found
    cases e
    by_cases same : first = id
    · subst same
      simp [resolved, here]
    · have behind := ih later ((List.mem_cons.1 asked).resolve_left (Ne.symm same))
      rw [← behind]
      simp [resolved, same]

theorem connect_eq {α : Type} (dial : String → Except Error α) (db : DatabaseSettings) (v : Vault) :
    connect dial db v =
      v.provider.secret db.userSecret >>= fun user => v.provider.secret db.passwordSecret >>= fun password =>
        dial (Login.uri ⟨user, password, db.hostname⟩) := by
  cases hs : v.provider.secrets [db.userSecret, db.passwordSecret] with
  | ok secrets =>
    have user : resolved secrets db.userSecret = _ := resolved_secrets hs (by simp)
    have password : resolved secrets db.passwordSecret = _ := resolved_secrets hs (by simp)
    rw [← user, ← password, connect, hs]
    rfl
  | error fault =>
    rw [connect, hs]
    simp only [SecretProvider.secrets_cons] at hs
    cases hu : v.provider.secret db.userSecret with
    | error e =>
      rw [hu] at hs
      cases hs
      rfl
    | ok user =>
      rw [hu] at hs
      cases hp : v.provider.secret db.passwordSecret with
      | error e =>
        rw [hp] at hs
        cases hs
        rfl
      | ok password =>
        rw [hp] at hs
        cases hs

def Resolves (db : DatabaseSettings) (v : Vault) (user password : String) : Prop :=
  v.provider.secret db.userSecret = .ok user ∧ v.provider.secret db.passwordSecret = .ok password

/-- The error of the first credential without a value, the user coming before the password. -/
def Lacks (db : DatabaseSettings) (v : Vault) (fault : Error) : Prop :=
  v.provider.secret db.userSecret = .error fault ∨
    (∃ user, v.provider.secret db.userSecret = .ok user) ∧ v.provider.secret db.passwordSecret = .error fault

theorem exists_lacks_iff (db : DatabaseSettings) (v : Vault) :
    (∃ fault, Lacks db v fault) ↔ ¬ ∃ user password, Resolves db v user password := by
  unfold Lacks Resolves
  cases v.provider.secret db.userSecret with
  | error fault => simp
  | ok user => cases v.provider.secret db.passwordSecret <;> simp

theorem connect_of_resolves {α : Type} {db : DatabaseSettings} {v : Vault} {user password : String}
    (found : Resolves db v user password) (dial : String → Except Error α) :
    connect dial db v = dial (Login.uri ⟨user, password, db.hostname⟩) := by
  rw [connect_eq, found.1, found.2]
  rfl

theorem connect_of_lacks {α : Type} {db : DatabaseSettings} {v : Vault} {fault : Error} (lacks : Lacks db v fault)
    (dial : String → Except Error α) : connect dial db v = .error fault := by
  rw [connect_eq]
  obtain user | ⟨⟨user, found⟩, password⟩ := lacks
  · rw [user]
    rfl
  · rw [found]
    show (v.provider.secret db.passwordSecret >>= _) = _
    rw [password]
    rfl

/-- An address spells its login, so that different logins have different addresses. Connecting dials the address of the
two secrets when both have a value. When one has none, and only then, the error of the first one without a value is the
answer, whatever would have been dialled; looking the secrets up among the values that were found never fails. -/
theorem connect_hands_over :
    (∀ l : Login, l.SpelledBy l.uri.toList) ∧ Function.Injective Login.uri ∧
    ∀ (α : Type) (db : DatabaseSettings) (v : Vault),
      (∀ user password, Resolves db v user password → ∀ dial : String → Except Error α,
        connect dial db v = dial (Login.uri ⟨user, password, db.hostname⟩)) ∧
      (∀ fault, Lacks db v fault → ∀ dial : String → Except Error α, connect dial db v = .error fault) ∧
      ((∃ fault, Lacks db v fault) ↔ ¬ ∃ user password, Resolves db v user password) ∧
      ∀ secrets, v.provider.secrets [db.userSecret, db.passwordSecret] = .ok secrets →
        ∀ id ∈ [db.userSecret, db.passwordSecret], ∃ value, resolved secrets id = .ok value := by
  refine ⟨Login.spelledBy_uri, Login.uri_injective, fun α db v => ⟨?_, ?_, exists_lacks_iff db v, ?_⟩⟩
  · intro user password found dial
    exact connect_of_resolves found dial
  · intro fault lacks dial
    exact connect_of_lacks lacks dial
  · intro secrets found id asked
    rw [resolved_secrets found asked]
    exact SecretProvider.exists_of_secrets found asked

/-- Marks in the credentials are no marks of the address: the database gets both as they are stored. -/
theorem connect_hands_over_marks :
    let provider := SecretProvider.fixed [("DB_USER", "qa:user"), ("DB_PASSWORD", "p@ss/w%rd")]
    connect dial { hostname := "db.lab:27017" } ⟨provider, "MASTER_KEY"⟩ =
      .ok ⟨"qa:user", "p@ss/w%rd", "db.lab:27017"⟩ := by
  intro provider
  have resolves : Resolves { hostname := "db.lab:27017" } ⟨provider, "MASTER_KEY"⟩ "qa:user" "p@ss/w%rd" := ⟨rfl, rfl⟩
  obtain ⟨-, -, connects⟩ := connect_hands_over
  rw [(connects Login _ _).1 _ _ resolves dial, dial, Login.ofUri?_uri]
  rfl

end Connection

end BucketBench
