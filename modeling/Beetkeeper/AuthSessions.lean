/-
Login sessions: the table of sessions, and the middleware that lets a request
through for the token it presents.
-/
import Mathlib.Data.List.Induction
import Beetkeeper.KeyedTable
import Beetkeeper.PyText
import Beetkeeper.Transition

namespace Beetkeeper

open Transition

abbrev Token := List Char

structure AuthSessionRecord (D : Type) where
  tokenHash : D
  createdAt : Int
  expiresAt : Int
deriving Repr, DecidableEq

abbrev AuthSessionTable (D : Type) :=
  KeyedTable (AuthSessionRecord D) AuthSessionRecord.tokenHash

/-- `datetime.max`, in microseconds since the epoch. -/
def datetimeMax : Int := 253402300799999999

/-- `extract_bearer_token`. -/
def extractBearerToken : Option (List Char) → Option Token
  | none => none
  | some authorizationHeader =>
      match PyText.partition ' ' authorizationHeader with
      | (scheme, _, token) =>
          if scheme.map Char.toLower ≠ "bearer".toList ∨
              PyText.strip token = [] then none
          else some (PyText.strip token)

structure AuthRequest where
  path : String
  authorization : Option (List Char)
  sessionCookie : Option Token
deriving Repr, DecidableEq

/-- `_EXEMPT_PATHS`. -/
def exemptPaths : List String :=
  ["/api/auth/login", "/login", "/api/health", "/docs", "/redoc",
    "/openapi.json"]

/-- `_EXEMPT_PATH_PREFIXES`. -/
def exemptPathPrefixes : List String := ["/static/"]

def AuthRequest.Exempt (request : AuthRequest) : Prop :=
  request.path ∈ exemptPaths ∨
    ∃ start ∈ exemptPathPrefixes, start.toList <+: request.path.toList

instance (request : AuthRequest) : Decidable request.Exempt := by
  unfold AuthRequest.Exempt
  infer_instance

/-- The token a request is judged by; an extracted token is never empty, so
that `or` falls back exactly when there is none. -/
def AuthRequest.token? (request : AuthRequest) : Option Token :=
  (extractBearerToken request.authorization).or request.sessionCookie

section

variable {D : Type} [DecidableEq D] (hashToken : Token → D)

/-- `AuthSessionStore.open_session`: the expired rows are deleted and the new
one is added.  An expiry past `datetime.max`, like a hash that is taken,
raises before the commit. -/
def openSession (table : AuthSessionTable D) (now ttl : Int)
    (token : Token) : Option (Token × AuthSessionTable D) :=
  if datetimeMax < now + ttl then none
  else
    ((table.deleteWhere fun row => row.expiresAt ≤ now).insert?
      ⟨hashToken token, now, now + ttl⟩).map fun opened => (token, opened)

/-- `AuthSessionStore.is_token_valid`. -/
def isTokenValid (table : AuthSessionTable D) (now : Int) (token : Token) :
    Bool :=
  match table.get? (hashToken token) with
  | none => false
  | some record => now < record.expiresAt

/-- `AuthSessionStore.revoke_token`. -/
def revokeToken (table : AuthSessionTable D) (token : Token) :
    Bool × AuthSessionTable D :=
  ((table.get? (hashToken token)).isSome, table.delete (hashToken token))

/-- `LoginProtectionMiddleware.dispatch`: whether the request is passed on. -/
def dispatch (enableLoginProtection : Bool) (table : AuthSessionTable D)
    (now : Int) (request : AuthRequest) : Bool :=
  if !enableLoginProtection then true
  else if request.Exempt then true
  else
    match request.token? with
    | none => false
    | some token => isTokenValid hashToken table now token

end

/-- What is done to the sessions; each clock is read once, and a token is what
`secrets` gives. -/
inductive AuthAction where
  | openSession (now ttl : Int) (token : Token)
  | revokeToken (token : Token)
  | request (now : Int) (request : AuthRequest)
deriving Repr, DecidableEq

structure AuthState (D : Type) where
  table : AuthSessionTable D
  clock : Int

/-- What has become of the tokens. -/
inductive AuthEvent where
  | issued (token : Token) (issuedAt ttl : Int)
  | revoked (token : Token)
deriving Repr, DecidableEq

section

variable {D : Type} [DecidableEq D] (hashToken : Token → D)

/-- The clock never goes backwards. -/
def AuthState.step (state : AuthState D) :
    AuthAction → Option (AuthState D)
  | .openSession now ttl token =>
      if now < state.clock then none
      else
        match Beetkeeper.openSession hashToken state.table now ttl token with
        | none => some ⟨state.table, now⟩
        | some (_, opened) => some ⟨opened, now⟩
  | .revokeToken token =>
      some ⟨(Beetkeeper.revokeToken hashToken state.table token).2,
        state.clock⟩
  | .request now _ =>
      if now < state.clock then none else some ⟨state.table, now⟩

/-- A session that could not be opened returns no token. -/
def noteToken (state : AuthState D) (action : AuthAction)
    (history : List AuthEvent) : List AuthEvent :=
  match action with
  | .openSession now ttl token =>
      match openSession hashToken state.table now ttl token with
      | none => history
      | some (returned, _) => history ++ [.issued returned now ttl]
  | .revokeToken token => history ++ [.revoked token]
  | .request _ _ => history

end

def AuthAction.opened? : AuthAction → Option Token
  | openSession _ _ token => some token
  | revokeToken _ => none
  | request _ _ => none

/-- The tokens whose hashes the action computes. -/
def AuthAction.tokens : AuthAction → List Token
  | openSession _ _ token => [token]
  | revokeToken token => [token]
  | request _ presenting => presenting.token?.toList

/-- The token was issued, is not expired, and was not revoked since. -/
def Live (history : List AuthEvent) (token : Token) (now : Int) : Prop :=
  ∃ (k : Nat) (issuedAt ttl : Int),
    history[k]? = some (.issued token issuedAt ttl) ∧
    (∀ later, k < later → history[later]? ≠ some (.revoked token)) ∧
    now < issuedAt + ttl

/-- A well-formed bearer header: the scheme, a blank, and a token. -/
def IsBearer (header : List Char) (token : Token) : Prop :=
  ∃ scheme rest, header = scheme ++ ' ' :: rest ∧ ' ' ∉ scheme ∧
    scheme.map Char.toLower = "bearer".toList ∧
    PyText.strip rest = token ∧ token ≠ []

/-- The token of the header if that is a well-formed one, else of the
cookie. -/
def Presents (request : AuthRequest) (token : Token) : Prop :=
  (∃ header, request.authorization = some header ∧ IsBearer header token) ∨
    ((∀ header, request.authorization = some header →
        ∀ other, ¬ IsBearer header other) ∧
      request.sessionCookie = some token)

theorem partition_eq_of_mem {separator : Char} {before after : List Char}
    (hfree : separator ∉ before) :
    PyText.partition separator (before ++ separator :: after) =
      (before, true, after) := by
  induction before with
  | nil => simp [PyText.partition]
  | cons c rest ih =>
      rw [List.mem_cons, not_or] at hfree
      rw [List.cons_append, PyText.partition, if_neg (Ne.symm hfree.1),
        ih hfree.2]

/-- What `str.partition` found, put together again. -/
theorem partition_cases (separator : Char) (text : List Char) :
    PyText.partition separator text = (text, false, []) ∨
      ∃ before after, text = before ++ separator :: after ∧
        separator ∉ before ∧
        PyText.partition separator text = (before, true, after) := by
  by_cases hmem : separator ∈ text
  · right
    obtain ⟨before, after, rfl, hfree⟩ := List.eq_append_cons_of_mem hmem
    exact ⟨before, after, rfl, hfree, partition_eq_of_mem hfree⟩
  · left
    induction text with
    | nil => rfl
    | cons c rest ih =>
        rw [List.mem_cons, not_or] at hmem
        rw [PyText.partition, if_neg (Ne.symm hmem.1), ih hmem.2]

theorem extractBearerToken_eq_some_iff {header : List Char}
    {token : Token} :
    extractBearerToken (some header) = some token ↔
      IsBearer header token := by
  have hempty : PyText.strip [] = [] := rfl
  rcases partition_cases ' ' header with hnone |
      ⟨scheme, rest, rfl, hfree, hfound⟩
  · have hreject : extractBearerToken (some header) = none := by
      rw [extractBearerToken, hnone]
      simp [hempty]
    rw [hreject]
    constructor
    · intro hsome
      cases hsome
    · rintro ⟨scheme, rest, rfl, hfree, -⟩
      rw [partition_eq_of_mem hfree] at hnone
      simp at hnone
  · have hread : extractBearerToken (some (scheme ++ ' ' :: rest)) =
        if scheme.map Char.toLower ≠ "bearer".toList ∨
            PyText.strip rest = [] then none
        else some (PyText.strip rest) := by
      rw [extractBearerToken, hfound]
    rw [hread]
    constructor
    · intro hsome
      split at hsome
      · cases hsome
      · rename_i haccept
        rw [not_or, not_not] at haccept
        obtain rfl := Option.some.inj hsome
        exact ⟨scheme, rest, rfl, hfree, haccept.1, rfl, haccept.2⟩
    · rintro ⟨other, after, hsame, hother, hscheme, rfl, hne⟩
      have hparts := @partition_eq_of_mem ' ' other after hother
      rw [← hsame, hfound] at hparts
      obtain ⟨rfl, -, rfl⟩ : scheme = other ∧ true = true ∧ rest = after := by
        simpa using hparts
      rw [if_neg]
      rw [not_or, not_not]
      exact ⟨hscheme, hne⟩

/-- The middleware judges a request by the token it presents. -/
theorem token?_eq_some_iff {request : AuthRequest} {token : Token} :
    request.token? = some token ↔ Presents request token := by
  rw [AuthRequest.token?, Option.or_eq_some_iff, Presents]
  cases hheader : request.authorization with
  | none => simp [extractBearerToken]
  | some header =>
      have hnone : extractBearerToken (some header) = none ↔
          ∀ other, ¬ IsBearer header other := by
        rw [Option.eq_none_iff_forall_ne_some]
        exact forall_congr' fun other =>
          not_congr extractBearerToken_eq_some_iff
      rw [extractBearerToken_eq_some_iff, hnone]
      simp

section Histories

variable {history : List AuthEvent} {token other : Token} {now : Int}

theorem getElem?_concat_eq_some_iff {A : Type} {list : List A} {last a : A}
    {k : Nat} :
    (list ++ [last])[k]? = some a ↔
      list[k]? = some a ∨ (k = list.length ∧ last = a) := by
  rw [List.getElem?_append]
  by_cases hk : k < list.length
  · have hne := Nat.ne_of_lt hk
    simp [hk, hne]
  · have hnone := List.getElem?_eq_none (Nat.le_of_not_lt hk)
    rw [if_neg hk, hnone]
    rcases Nat.eq_or_lt_of_le (Nat.le_of_not_lt hk) with rfl | hlt
    · simp
    · have hne := Nat.ne_of_gt hlt
      have hpos : k - list.length ≠ 0 := by omega
      simp [hne, hpos]

theorem live_concat_issued {issuedAt ttl : Int} :
    Live (history ++ [.issued other issuedAt ttl]) token now ↔
      Live history token now ∨ (token = other ∧ now < issuedAt + ttl) := by
  constructor
  · rintro ⟨k, at', ttl', hissued, hkept, hbefore⟩
    rcases getElem?_concat_eq_some_iff.mp hissued with hold | ⟨-, hlast⟩
    · refine .inl ⟨k, at', ttl', hold, ?_, hbefore⟩
      intro later hlater hrevoked
      exact hkept later hlater
        (getElem?_concat_eq_some_iff.mpr (.inl hrevoked))
    · obtain ⟨rfl, rfl, rfl⟩ := AuthEvent.issued.inj hlast
      exact .inr ⟨rfl, hbefore⟩
  · rintro (⟨k, at', ttl', hissued, hkept, hbefore⟩ | ⟨rfl, hbefore⟩)
    · refine ⟨k, at', ttl',
        getElem?_concat_eq_some_iff.mpr (.inl hissued), ?_, hbefore⟩
      intro later hlater hrevoked
      rcases getElem?_concat_eq_some_iff.mp hrevoked with hold | ⟨-, hlast⟩
      · exact hkept later hlater hold
      · cases hlast
    · refine ⟨history.length, issuedAt, ttl,
        getElem?_concat_eq_some_iff.mpr (.inr ⟨rfl, rfl⟩), ?_, hbefore⟩
      intro later hlater hrevoked
      rcases getElem?_concat_eq_some_iff.mp hrevoked with hold | ⟨hlast, -⟩
      · have hlt := (List.getElem?_eq_some_iff.mp hold).1
        omega
      · omega

theorem live_concat_revoked :
    Live (history ++ [.revoked other]) token now ↔
      Live history token now ∧ token ≠ other := by
  constructor
  · rintro ⟨k, issuedAt, ttl, hissued, hkept, hbefore⟩
    rcases getElem?_concat_eq_some_iff.mp hissued with hold | ⟨-, hlast⟩
    · constructor
      · refine ⟨k, issuedAt, ttl, hold, ?_, hbefore⟩
        intro later hlater hrevoked
        exact hkept later hlater
          (getElem?_concat_eq_some_iff.mpr (.inl hrevoked))
      · rintro rfl
        exact hkept history.length (List.getElem?_eq_some_iff.mp hold).1
          (getElem?_concat_eq_some_iff.mpr (.inr ⟨rfl, rfl⟩))
    · cases hlast
  · rintro ⟨⟨k, issuedAt, ttl, hissued, hkept, hbefore⟩, hne⟩
    refine ⟨k, issuedAt, ttl,
      getElem?_concat_eq_some_iff.mpr (.inl hissued), ?_, hbefore⟩
    intro later hlater hrevoked
    rcases getElem?_concat_eq_some_iff.mp hrevoked with hold | ⟨-, hlast⟩
    · exact hkept later hlater hold
    · exact hne (AuthEvent.revoked.inj hlast).symm

end Histories

section Tables

variable {D : Type} [DecidableEq D] {hashToken : Token → D}
  {table : AuthSessionTable D} {token other : Token} {now : Int}

theorem isTokenValid_iff :
    isTokenValid hashToken table now token = true ↔
      ∃ record, table.get? (hashToken token) = some record ∧
        now < record.expiresAt := by
  rw [isTokenValid]
  cases table.get? (hashToken token) <;> simp

/-- Opening a session leaves every other token valid for as long as it was:
the purge takes only what has expired. -/
theorem isTokenValid_openSession {opened : AuthSessionTable D} {ttl at' : Int}
    {returned : Token}
    (hopen : openSession hashToken table now ttl other =
      some (returned, opened)) (hle : now ≤ at') :
    isTokenValid hashToken opened at' token = true ↔
      if hashToken token = hashToken other then at' < now + ttl
      else isTokenValid hashToken table at' token = true := by
  rw [openSession] at hopen
  split at hopen
  · cases hopen
  · obtain ⟨next, hinsert, hsame⟩ := Option.map_eq_some_iff.mp hopen
    obtain ⟨-, rfl⟩ := Prod.mk.inj hsame
    rw [isTokenValid_iff, KeyedTable.get?_insert? hinsert]
    by_cases hhash : hashToken token = hashToken other
    · rw [if_pos hhash]
      simp [hhash]
    · rw [if_neg hhash]
      simp only [if_neg (Ne.symm hhash),
        KeyedTable.get?_deleteWhere_eq_some_iff, decide_eq_false_iff_not]
      rw [isTokenValid_iff]
      constructor
      · rintro ⟨record, ⟨hget, -⟩, hlt⟩
        exact ⟨record, hget, hlt⟩
      · rintro ⟨record, hget, hlt⟩
        exact ⟨record, ⟨hget, by omega⟩, hlt⟩

theorem openSession_token {opened : AuthSessionTable D} {ttl : Int}
    {returned : Token}
    (hopen : openSession hashToken table now ttl other =
      some (returned, opened)) : returned = other := by
  rw [openSession] at hopen
  split at hopen
  · cases hopen
  · obtain ⟨next, -, hsame⟩ := Option.map_eq_some_iff.mp hopen
    exact (Prod.mk.inj hsame).1.symm

theorem isTokenValid_revokeToken :
    isTokenValid hashToken (revokeToken hashToken table other).2 now token =
        true ↔
      isTokenValid hashToken table now token = true ∧
        hashToken token ≠ hashToken other := by
  rw [isTokenValid_iff, isTokenValid_iff, revokeToken]
  simp only [KeyedTable.get?_delete_eq_some_iff]
  constructor
  · rintro ⟨record, ⟨hget, hne⟩, hlt⟩
    exact ⟨⟨record, hget, hlt⟩, hne⟩
  · rintro ⟨⟨record, hget, hlt⟩, hne⟩
    exact ⟨record, ⟨hget, hne⟩, hlt⟩

end Tables

section Runs

variable {D : Type} [DecidableEq D] {hashToken : Token → D}

/-- Among these tokens no two have one hash. -/
def NoCollision (hashToken : Token → D) (tokens : List Token) : Prop :=
  ∀ token ∈ tokens, ∀ other ∈ tokens,
    hashToken token = hashToken other → token = other

/-- From now on the table takes exactly the live tokens, and those are among
the opened ones. -/
structure Reflects (hashToken : Token → D) (tokens opened : List Token)
    (state : AuthState D × List AuthEvent) : Prop where
  valid : ∀ token ∈ tokens, ∀ now, state.1.clock ≤ now →
    (isTokenValid hashToken state.1.table now token = true ↔
      Live state.2 token now)
  issued : ∀ token now, Live state.2 token now → token ∈ opened

variable {tokens opened : List Token}
  {before after : AuthState D × List AuthEvent}

theorem Reflects.openSession {now ttl : Int} {token : Token}
    (hreflects : Reflects hashToken tokens opened before)
    (hcollision : NoCollision hashToken tokens) (htoken : token ∈ tokens)
    (hfresh : token ∉ opened)
    (hstep : recording (AuthState.step hashToken) (noteToken hashToken)
      before (.openSession now ttl token) = some after) :
    Reflects hashToken tokens (opened ++ [token]) after := by
  obtain ⟨hnext, hnote⟩ := recording_eq_some.mp hstep
  simp only [AuthState.step] at hnext
  split at hnext
  · cases hnext
  · rename_i hclock
    have hlater : before.1.clock ≤ now := Int.not_lt.mp hclock
    simp only [noteToken] at hnote
    cases hopen : Beetkeeper.openSession hashToken before.1.table now ttl
        token with
    | none =>
        rw [hopen] at hnext hnote
        have hstate := Option.some.inj hnext
        constructor
        · intro other hother at' hat
          rw [← hstate] at hat ⊢
          rw [hnote]
          exact hreflects.valid other hother at' (Int.le_trans hlater hat)
        · intro other at' hlive
          rw [hnote] at hlive
          exact List.mem_append_left _ (hreflects.issued other at' hlive)
    | some result =>
        obtain ⟨returned, table⟩ := result
        obtain rfl := openSession_token hopen
        rw [hopen] at hnext hnote
        have hstate := Option.some.inj hnext
        constructor
        · intro other hother at' hat
          rw [← hstate] at hat ⊢
          rw [hnote, isTokenValid_openSession hopen hat]
          dsimp only
          rw [live_concat_issued]
          by_cases hsame : other = returned
          · subst hsame
            have hnever : ¬ Live before.2 other at' := fun hlive =>
              hfresh (hreflects.issued other at' hlive)
            simp [hnever]
          · have hhash := fun heq =>
              hsame (hcollision other hother returned htoken heq)
            rw [if_neg hhash,
              hreflects.valid other hother at' (Int.le_trans hlater hat)]
            simp [hsame]
        · intro other at' hlive
          rw [hnote] at hlive
          rcases live_concat_issued.mp hlive with hold | ⟨rfl, -⟩
          · exact List.mem_append_left _ (hreflects.issued other at' hold)
          · exact List.mem_append_right _ List.mem_cons_self

theorem Reflects.revokeToken {token : Token}
    (hreflects : Reflects hashToken tokens opened before)
    (hcollision : NoCollision hashToken tokens) (htoken : token ∈ tokens)
    (hstep : recording (AuthState.step hashToken) (noteToken hashToken)
      before (.revokeToken token) = some after) :
    Reflects hashToken tokens opened after := by
  obtain ⟨hnext, hnote⟩ := recording_eq_some.mp hstep
  have hstate := Option.some.inj hnext
  simp only [noteToken] at hnote
  constructor
  · intro other hother now hnow
    rw [← hstate] at hnow ⊢
    rw [hnote, live_concat_revoked]
    dsimp only
    rw [isTokenValid_revokeToken, hreflects.valid other hother now hnow]
    refine and_congr_right fun _ => not_congr ?_
    exact ⟨hcollision other hother token htoken, congrArg hashToken⟩
  · intro other now hlive
    rw [hnote] at hlive
    exact hreflects.issued other now (live_concat_revoked.mp hlive).1

theorem Reflects.request {now : Int} {request : AuthRequest}
    (hreflects : Reflects hashToken tokens opened before)
    (hstep : recording (AuthState.step hashToken) (noteToken hashToken)
      before (.request now request) = some after) :
    Reflects hashToken tokens opened after := by
  obtain ⟨hnext, hnote⟩ := recording_eq_some.mp hstep
  simp only [AuthState.step] at hnext
  split at hnext
  · cases hnext
  · rename_i hclock
    have hlater : before.1.clock ≤ now := Int.not_lt.mp hclock
    have hstate := Option.some.inj hnext
    simp only [noteToken] at hnote
    constructor
    · intro other hother at' hat
      rw [← hstate] at hat ⊢
      rw [hnote]
      exact hreflects.valid other hother at' (Int.le_trans hlater hat)
    · intro other at' hlive
      rw [hnote] at hlive
      exact hreflects.issued other at' hlive

/-- After every run the table takes exactly the live tokens. -/
theorem reflects_of_exec {start : Int} {actions : List AuthAction}
    {final : AuthState D × List AuthEvent}
    (hexec : exec (recording (AuthState.step hashToken)
      (noteToken hashToken)) (⟨KeyedTable.empty, start⟩, []) actions =
        some final)
    (hfresh : (actions.filterMap AuthAction.opened?).Nodup)
    (htokens : ∀ action ∈ actions, ∀ token ∈ action.tokens, token ∈ tokens)
    (hcollision : NoCollision hashToken tokens) :
    Reflects hashToken tokens (actions.filterMap AuthAction.opened?)
      final := by
  induction actions using List.reverseRecOn generalizing final with
  | nil =>
      obtain rfl := Option.some.inj hexec
      have hnone : ∀ token now, ¬ Live [] token now := by
        rintro token now ⟨k, issuedAt, ttl, hissued, -⟩
        cases hissued
      constructor
      · intro token _ now _
        simp [hnone, isTokenValid, KeyedTable.empty, KeyedTable.get?]
      · exact fun token now hlive => absurd hlive (hnone token now)
  | append_singleton actions action ih =>
      obtain ⟨middle, hbefore, hlast⟩ := exec_append_eq_some.mp hexec
      obtain ⟨next, hstep, hnil⟩ := exec_cons_eq_some.mp hlast
      obtain rfl := Option.some.inj hnil
      rw [List.filterMap_append] at hfresh ⊢
      have hmiddle := ih hbefore (List.nodup_append.mp hfresh).1
        fun other hother => htokens other (List.mem_append_left _ hother)
      have hlastTokens := htokens action
        (List.mem_append_right _ List.mem_cons_self)
      cases action with
      | openSession now ttl token =>
          refine hmiddle.openSession hcollision
            (hlastTokens token List.mem_cons_self) ?_ hstep
          intro hmem
          exact (List.nodup_append.mp hfresh).2.2 token hmem token
            List.mem_cons_self rfl
      | revokeToken token =>
          rw [show [AuthAction.revokeToken token].filterMap
            AuthAction.opened? = [] from rfl, List.append_nil]
          exact hmiddle.revokeToken hcollision
            (hlastTokens token List.mem_cons_self) hstep
      | request now request =>
          rw [show [AuthAction.request now request].filterMap
            AuthAction.opened? = [] from rfl, List.append_nil]
          exact hmiddle.request hstep

/-- A request for a protected path is passed on exactly if the token it
presents was issued, is not expired, and was not revoked since. -/
theorem dispatch_iff_live {start now : Int} {actions : List AuthAction}
    {state : AuthState D} {history : List AuthEvent} {request : AuthRequest}
    (hexec : exec (recording (AuthState.step hashToken)
      (noteToken hashToken)) (⟨KeyedTable.empty, start⟩, []) actions =
        some (state, history))
    (hfresh : (actions.filterMap AuthAction.opened?).Nodup)
    (hcollision : NoCollision hashToken
      ((actions ++ [AuthAction.request now request]).flatMap
        AuthAction.tokens))
    (hclock : state.clock ≤ now) (hprotected : ¬ request.Exempt) :
    dispatch hashToken true state.table now request = true ↔
      ∃ token, Presents request token ∧ Live history token now := by
  have hreflects := reflects_of_exec hexec hfresh
    (fun action haction token htoken => List.mem_flatMap.mpr
      ⟨action, List.mem_append_left _ haction, htoken⟩) hcollision
  have hdispatch : dispatch hashToken true state.table now request = true ↔
      ∃ token, request.token? = some token ∧
        isTokenValid hashToken state.table now token = true := by
    rw [dispatch]
    cases request.token? <;> simp [hprotected]
  rw [hdispatch]
  refine exists_congr fun token => ?_
  rw [← token?_eq_some_iff]
  refine and_congr_right fun htoken => ?_
  apply hreflects.valid token _ now hclock
  refine List.mem_flatMap.mpr ⟨AuthAction.request now request,
    List.mem_append_right _ List.mem_cons_self, ?_⟩
  rw [AuthAction.tokens, htoken]
  exact List.mem_cons_self

end Runs

def exampleActions : List AuthAction :=
  [.openSession 0 10 "first".toList, .openSession 3 20 "other".toList,
    .revokeToken "other".toList]

def exampleRequest : AuthRequest :=
  ⟨"/api/events", some "bearer first".toList, some "other".toList⟩

/-- The bearer token counts, not the revoked one in the cookie. -/
theorem dispatch_iff_live_example :
    ∃ state history, exec (recording (AuthState.step id) (noteToken id))
        (⟨KeyedTable.empty, 0⟩, []) exampleActions = some (state, history) ∧
      (dispatch id true state.table 9 exampleRequest = true ↔
        ∃ token, Presents exampleRequest token ∧ Live history token 9) := by
  refine ⟨_, _, rfl, ?_⟩
  apply @dispatch_iff_live _ _ id 0 9 exampleActions _ _ exampleRequest rfl
  · decide
  · unfold NoCollision
    decide
  · decide
  · decide

end Beetkeeper
