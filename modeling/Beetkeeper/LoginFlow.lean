/-
Logging in and out: what a request without a session is answered, the login
page and its form, and the routes that open and revoke sessions.  The
destination of the first request travels through a URL and a form before the
browser is sent back to it.
-/
import Beetkeeper.AuthSessions
import Beetkeeper.FormUrl
import Beetkeeper.UserConfig

namespace Beetkeeper

open Transition FormUrl

/-- `timedelta(hours=auth_config.session_ttl_hours)`. -/
def AuthConfSection.ttl (auth : AuthConfSection) : Int :=
  auth.sessionTtlHours * 3600000000

def credentialsMatch (username password : List Char)
    (auth : AuthConfSection) : Bool :=
  match auth.username, auth.password with
  | some expectedName, some expectedPassword =>
      decide (Utf8.encode username = Utf8.encode expectedName.toList) &&
        decide (Utf8.encode password = Utf8.encode expectedPassword.toList)
  | _, _ => false

/-- What `_safe_next_path` lets pass. -/
def SitePath (raw : List Char) : Prop :=
  "/".toList <+: raw ∧ ¬ "//".toList <+: raw ∧ ¬ "/\\".toList <+: raw

instance (raw : List Char) : Decidable (SitePath raw) :=
  inferInstanceAs (Decidable (_ ∧ _ ∧ _))

/-- `_safe_next_path`. -/
def safeNextPath : Option (List Char) → List Char
  | none => "/".toList
  | some rawNext => if SitePath rawNext then rawNext else "/".toList

def destination (nextPath nextQuery : List Char) : List Char :=
  nextPath ++ if nextQuery = [] then [] else '?' :: nextQuery

/-- `_login_url`. -/
def loginUrl (nextPath nextQuery : List Char) : List Char :=
  if destination nextPath nextQuery = [] ∨
      destination nextPath nextQuery = "/".toList then "/login".toList
  else
    "/login?".toList ++
      urlencode [("next".toList, destination nextPath nextQuery)]

inductive CookieChange where
  | kept
  | set (token : Token) (maxAge : Int)
  | deleted
deriving Repr, DecidableEq

/-- An answer of the middleware or of a login route. -/
inductive Reply where
  /-- the login page, the destination in its form -/
  | loginPage (status : Nat) (error : Option String) (nextPath : List Char)
  | redirect (status : Nat) (url : List Char) (cookie : CookieChange)
  | hxRedirect (status : Nat) (url : List Char)
  | token (token : Token)
  | loggedOut
  | refused (status : Nat) (detail : String) (authenticate : Bool)
  /-- the route raised -/
  | raised
deriving Repr, DecidableEq

/-- The header that sends the browser on; a `RedirectResponse` quotes its
URL. -/
def Reply.location? : Reply → Option (List Char)
  | .redirect _ url _ => some (quoteUrl url)
  | .hxRedirect _ url => some url
  | _ => none

/-- A request as the middleware sees it; path and query of `HX-Current-URL`
are those `urlsplit` finds, empty without the header. -/
structure PageRequest where
  request : AuthRequest
  query : List Char
  hxRequest : Bool
  hxCurrentPath : List Char
  hxCurrentQuery : List Char
deriving Repr, DecidableEq

/-- `_unauthenticated_response`. -/
def unauthenticatedResponse (page : PageRequest) : Reply :=
  if "/api/".toList <+: page.request.path.toList then
    .refused 401
      "Not authenticated. Obtain a bearer token via POST /api/auth/login."
      true
  else if page.hxRequest then
    .hxRedirect 401 (loginUrl page.hxCurrentPath page.hxCurrentQuery)
  else
    .redirect 302 (loginUrl page.request.path.toList page.query) .kept

/-- `GET /login`. -/
def loginPage (auth : AuthConfSection) (nextPath : Option (List Char)) :
    Reply :=
  if !auth.enableLoginProtection then .redirect 302 "/".toList .kept
  else .loginPage 200 none (safeNextPath nextPath)

section

variable {D : Type} [DecidableEq D] (hashToken : Token → D)

/-- `POST /login`; `fresh` is what `secrets` gives. -/
def loginSubmit (auth : AuthConfSection) (table : AuthSessionTable D)
    (now : Int) (fresh : Token) (username password : List Char)
    (nextPath : Option (List Char)) : Reply × AuthSessionTable D :=
  if !auth.enableLoginProtection then
    (.redirect 302 "/".toList .kept, table)
  else if !credentialsMatch username password auth then
    (.loginPage 401 (some "Incorrect username or password.")
      (safeNextPath nextPath), table)
  else
    match openSession hashToken table now auth.ttl fresh with
    | none => (.raised, table)
    | some (token, opened) =>
        (.redirect 303 (safeNextPath nextPath)
          (.set token (auth.sessionTtlHours * 3600)), opened)

/-- `POST /logout`. -/
def logoutSubmit (table : AuthSessionTable D) (cookie : Option Token) :
    Reply × AuthSessionTable D :=
  (.redirect 303 "/login".toList .deleted,
    match cookie with
    | none => table
    | some token => (revokeToken hashToken table token).2)

/-- `POST /api/auth/login`. -/
def login (auth : AuthConfSection) (table : AuthSessionTable D)
    (now : Int) (fresh : Token) (username password : List Char) :
    Reply × AuthSessionTable D :=
  if !auth.enableLoginProtection then
    (.refused 403
      "Login protection is disabled (`beetkeeper.auth.enable_login_protection`); no token is needed."
      false, table)
  else if !credentialsMatch username password auth then
    (.refused 401 "Incorrect username or password." true, table)
  else
    match openSession hashToken table now auth.ttl fresh with
    | none => (.raised, table)
    | some (token, opened) => (.token token, opened)

/-- `POST /api/auth/logout`; the credentials are what the bearer scheme makes
of the header. -/
def logout (table : AuthSessionTable D) (credentials : Option Token) :
    Reply × AuthSessionTable D :=
  match credentials with
  | none => (.refused 401 "No bearer token to log out." true, table)
  | some token => (.loggedOut, (revokeToken hashToken table token).2)

end

section SitePaths

theorem exists_of_sitePath {raw : List Char} (hraw : SitePath raw) :
    ∃ rest, raw = '/' :: rest := by
  obtain ⟨rest, hrest⟩ := hraw.1
  exact ⟨rest, hrest.symm⟩

theorem sitePath_cons_iff {rest : List Char} :
    SitePath ('/' :: rest) ↔
      rest.head? ≠ some '/' ∧ rest.head? ≠ some '\\' := by
  cases rest with
  | nil => decide
  | cons c rest => simp [SitePath, List.cons_prefix_cons, eq_comm]

theorem sitePath_root : SitePath "/".toList := by decide

/-- Whatever is asked for, the path is one of this site. -/
theorem sitePath_safeNextPath (nextPath : Option (List Char)) :
    SitePath (safeNextPath nextPath) := by
  cases nextPath with
  | none => exact sitePath_root
  | some raw =>
      rw [safeNextPath]
      split
      · assumption
      · exact sitePath_root

theorem safeNextPath_of_sitePath {raw : List Char} (hraw : SitePath raw) :
    safeNextPath (some raw) = raw :=
  if_pos hraw

theorem sendNewlines_cons {c : Char} (hreturn : c ≠ '\r') (hfeed : c ≠ '\n')
    (rest : List Char) :
    PyText.sendNewlines (c :: rest) = c :: PyText.sendNewlines rest := by
  rw [PyText.sendNewlines]
  · rintro _ rfl _
    exact hreturn rfl
  · rintro rfl
    exact hreturn rfl
  · rintro rfl
    exact hfeed rfl

/-- Newlines that have been sent are sent as they are. -/
theorem sendNewlines_sendNewlines (text : List Char) :
    PyText.sendNewlines (PyText.sendNewlines text) =
      PyText.sendNewlines text := by
  fun_induction PyText.sendNewlines text with
  | case1 => rfl
  | case2 rest ih => rw [PyText.sendNewlines, ih]
  | case3 rest _ ih => rw [PyText.sendNewlines, ih]
  | case4 rest ih => rw [PyText.sendNewlines, ih]
  | case5 c rest hpair hreturn hfeed ih =>
      rw [sendNewlines_cons hreturn hfeed, ih]

theorem head?_sendNewlines (text : List Char) :
    (PyText.sendNewlines text).head? =
      text.head?.map fun c => if c = '\n' then '\r' else c := by
  fun_cases PyText.sendNewlines text <;> simp_all

/-- Sending a path of this site in a form keeps it one. -/
theorem sitePath_sendNewlines {raw : List Char} (hraw : SitePath raw) :
    SitePath (PyText.sendNewlines raw) := by
  obtain ⟨rest, rfl⟩ := exists_of_sitePath hraw
  obtain ⟨hslash, hback⟩ := sitePath_cons_iff.mp hraw
  rw [sendNewlines_cons (by decide) (by decide), sitePath_cons_iff,
    head?_sendNewlines]
  cases hfirst : rest.head? with
  | none => exact ⟨nofun, nofun⟩
  | some c =>
      rw [hfirst] at hslash hback
      by_cases hfeed : c = '\n'
      · subst hfeed
        decide
      · simpa [hfeed] using And.intro hslash hback

end SitePaths

section Journey

/-- The query of a URL. -/
def queryOf (url : List Char) : List Char := (PyText.partition '?' url).2.2

/-- What the login page's form posts; the hidden field is only there for a
destination other than the site root. -/
def loginForm (nextPath username password : List Char) : Pairs :=
  (if nextPath = "/".toList then []
    else [("next".toList, PyText.sendNewlines nextPath)]) ++
    [("username".toList, username), ("password".toList, password)]

variable {D : Type} [DecidableEq D] (hashToken : Token → D)

/-- The user fills in the login page that is shown and posts it. -/
def postLogin (auth : AuthConfSection) (table : AuthSessionTable D)
    (now : Int) (fresh : Token) (shown : Reply)
    (entered : List Char × List Char) :
    Option (Reply × AuthSessionTable D) :=
  match shown with
  | .loginPage _ _ nextPath =>
      let fields :=
        parseQsl (urlencode (loginForm nextPath entered.1 entered.2))
      match field? "username" fields, field? "password" fields with
      | some username, some password =>
          some (loginSubmit hashToken auth table now fresh username password
            (field? "next" fields))
      | _, _ => none
  | _ => none

/-- A browser follows a login URL; the user posts the form until one of the
entries is right. -/
def followLogin (auth : AuthConfSection) (table : AuthSessionTable D)
    (now : Int) (fresh : Token) (url : List Char)
    (entered : List (List Char × List Char)) :
    Option (Reply × AuthSessionTable D) :=
  entered.foldlM
    (fun answer entry =>
      postLogin hashToken auth answer.2 now fresh answer.1 entry)
    (loginPage auth (field? "next" (parseQsl (queryOf url))), table)

/-- The form carries the destination. -/
theorem field?_next_loginForm (nextPath username password : List Char) :
    field? "next" (loginForm nextPath username password) =
      if nextPath = "/".toList then none
      else some (PyText.sendNewlines nextPath) := by
  by_cases hroot : nextPath = "/".toList
  · rw [loginForm, if_pos hroot, if_pos hroot]
    rfl
  · rw [loginForm, if_neg hroot, if_neg hroot]
    rfl

theorem field?_username_loginForm (nextPath username password : List Char) :
    field? "username" (loginForm nextPath username password) =
      some username := by
  rw [loginForm, field?, List.reverse_append]
  rfl

theorem field?_password_loginForm (nextPath username password : List Char) :
    field? "password" (loginForm nextPath username password) =
      some password := by
  rw [loginForm, field?, List.reverse_append]
  rfl

theorem sendNewlines_root :
    PyText.sendNewlines "/".toList = "/".toList := by decide

/-- What a posted form brings back is what the page carried. -/
theorem safeNextPath_loginForm {nextPath : List Char}
    (hnext : SitePath nextPath) (username password : List Char) :
    safeNextPath (field? "next" (loginForm nextPath username password)) =
      PyText.sendNewlines nextPath := by
  rw [field?_next_loginForm]
  split
  · rename_i hroot
    rw [hroot, sendNewlines_root]
    rfl
  · exact safeNextPath_of_sitePath (sitePath_sendNewlines hnext)

/-- The login URL brings the destination to the login page. -/
theorem safeNextPath_loginUrl (nextPath nextQuery : List Char) :
    safeNextPath (field? "next" (parseQsl (queryOf
      (loginUrl nextPath nextQuery)))) =
      safeNextPath (some (destination nextPath nextQuery)) := by
  rw [loginUrl]
  split
  · rename_i hroot
    rcases hroot with hempty | hroot
    · rw [hempty]
      decide
    · rw [hroot]
      decide
  · have hquery : ∀ query, queryOf ("/login?".toList ++ query) = query := by
      intro query
      have hfree : '?' ∉ "/login".toList := by decide
      exact congrArg (·.2.2) (PyText.partition_append hfree query)
    rw [hquery, parseQsl_urlencode]
    rfl

/-- A post is a submission that carries the destination of the page. -/
theorem postLogin_eq (auth : AuthConfSection) (table : AuthSessionTable D)
    (now : Int) (fresh : Token) {nextPath : List Char}
    (hnext : SitePath nextPath) (status : Nat) (error : Option String)
    (entry : List Char × List Char) :
    ∃ carried, safeNextPath carried = PyText.sendNewlines nextPath ∧
      postLogin hashToken auth table now fresh
        (.loginPage status error nextPath) entry =
        some (loginSubmit hashToken auth table now fresh entry.1 entry.2
          carried) := by
  refine ⟨_, safeNextPath_loginForm hnext entry.1 entry.2, ?_⟩
  simp only [postLogin, parseQsl_urlencode, field?_username_loginForm,
    field?_password_loginForm]

variable {hashToken} {auth : AuthConfSection} {table : AuthSessionTable D}
  {now : Int} {fresh : Token}

/-- Wrong entries show the page again, the destination still in it; the right
one leads to the destination. -/
theorem foldlM_postLogin (hprotected : auth.enableLoginProtection = true)
    {wrong : List (List Char × List Char)}
    (hwrong : ∀ entry ∈ wrong, credentialsMatch entry.1 entry.2 auth = false)
    {right : List Char × List Char}
    (hright : credentialsMatch right.1 right.2 auth = true) {token : Token}
    {opened : AuthSessionTable D}
    (hopen : openSession hashToken table now auth.ttl fresh =
      some (token, opened)) {nextPath : List Char}
    (hnext : SitePath nextPath) (status : Nat) (error : Option String) :
    (wrong ++ [right]).foldlM
      (fun (answer : Reply × AuthSessionTable D) entry =>
        postLogin hashToken auth answer.2 now fresh answer.1 entry)
      (.loginPage status error nextPath, table) =
      some (.redirect 303 (PyText.sendNewlines nextPath)
        (.set token (auth.sessionTtlHours * 3600)), opened) := by
  induction wrong generalizing nextPath status error with
  | nil =>
      obtain ⟨carried, hcarried, hpost⟩ := postLogin_eq hashToken auth table
        now fresh hnext status error right
      rw [List.nil_append, List.foldlM_cons, hpost, loginSubmit]
      simp [hprotected, hright, hopen, hcarried]
  | cons entry rest ih =>
      obtain ⟨hentry, hrest⟩ := List.forall_mem_cons.mp hwrong
      obtain ⟨carried, hcarried, hpost⟩ := postLogin_eq hashToken auth table
        now fresh hnext status error entry
      rw [List.cons_append, List.foldlM_cons, hpost, loginSubmit]
      simp only [hprotected, hentry, hcarried]
      have hagain := ih hrest (sitePath_sendNewlines hnext) 401
        (some "Incorrect username or password.")
      rw [sendNewlines_sendNewlines] at hagain
      exact hagain

/-- However often the user mistypes, logging in at the end of a redirect leads
back to where the browser was going if that is a path of this site, and to the
site root otherwise. -/
theorem login_returns_to_destination (hashToken : Token → D)
    (auth : AuthConfSection) (table : AuthSessionTable D) (now : Int)
    (fresh : Token) (hprotected : auth.enableLoginProtection = true)
    (wrong : List (List Char × List Char))
    (hwrong : ∀ entry ∈ wrong, credentialsMatch entry.1 entry.2 auth = false)
    (right : List Char × List Char)
    (hright : credentialsMatch right.1 right.2 auth = true)
    (token : Token) (opened : AuthSessionTable D)
    (hopen : openSession hashToken table now auth.ttl fresh =
      some (token, opened)) (nextPath nextQuery : List Char) :
    followLogin hashToken auth table now fresh (loginUrl nextPath nextQuery)
      (wrong ++ [right]) =
      some (.redirect 303
        (if SitePath (destination nextPath nextQuery) then
          PyText.sendNewlines (destination nextPath nextQuery)
        else "/".toList)
        (.set token (auth.sessionTtlHours * 3600)), opened) := by
  have hshown := sitePath_safeNextPath
    (some (destination nextPath nextQuery))
  have hled := foldlM_postLogin hprotected hwrong hright hopen hshown 200 none
  rw [followLogin, loginPage, safeNextPath_loginUrl]
  simp only [hprotected]
  refine hled.trans ?_
  rw [safeNextPath]
  split
  · rfl
  · rw [sendNewlines_root]

/-- The credentials of the examples. -/
def exampleAuth : AuthConfSection := ⟨true, some "admin", some "tune", 1⟩

/-- The password is mistyped once on the way to the second page of a search. -/
theorem login_returns_to_search :
    ∃ opened, followLogin id exampleAuth KeyedTable.empty 0 "t".toList
        (loginUrl "/search".toList "query=a%26b&page=2".toList)
        [("admin".toList, "tnue".toList), ("admin".toList, "tune".toList)] =
      some (.redirect 303
        (if SitePath (destination "/search".toList
            "query=a%26b&page=2".toList) then
          PyText.sendNewlines (destination "/search".toList
            "query=a%26b&page=2".toList)
        else "/".toList) (.set "t".toList 3600), opened) :=
  ⟨_, login_returns_to_destination id exampleAuth KeyedTable.empty 0
    "t".toList rfl [("admin".toList, "tnue".toList)] (by decide)
    ("admin".toList, "tune".toList) (by decide) "t".toList _ rfl _ _⟩

end Journey

/-- A request that reaches a login route. -/
inductive Endpoint where
  | loginPage (nextPath : Option (List Char))
  | loginSubmit (username password : List Char)
      (nextPath : Option (List Char))
  | logoutSubmit (cookie : Option Token)
  | login (username password : List Char)
  | logout (credentials : Option Token)
deriving Repr, DecidableEq

/-- The credentials a request tries. -/
def Endpoint.credentials? : Endpoint → Option (List Char × List Char)
  | .loginSubmit username password _ => some (username, password)
  | .login username password => some (username, password)
  | _ => none

/-- The token a request revokes. -/
def Endpoint.revokes? : Endpoint → Option Token
  | .logoutSubmit cookie => cookie
  | .logout credentials => credentials
  | _ => none

section

variable {D : Type} [DecidableEq D] (hashToken : Token → D)

def serve (auth : AuthConfSection) (table : AuthSessionTable D) (now : Int)
    (fresh : Token) : Endpoint → Reply × AuthSessionTable D
  | .loginPage nextPath => (Beetkeeper.loginPage auth nextPath, table)
  | .loginSubmit username password nextPath =>
      Beetkeeper.loginSubmit hashToken auth table now fresh username password
        nextPath
  | .logoutSubmit cookie => Beetkeeper.logoutSubmit hashToken table cookie
  | .login username password =>
      Beetkeeper.login hashToken auth table now fresh username password
  | .logout credentials => Beetkeeper.logout hashToken table credentials

end

/-- A visit to a login route at some time, with the token `secrets` would
give. -/
structure Visit where
  now : Int
  fresh : Token
  endpoint : Endpoint
deriving Repr, DecidableEq

section Runs

variable {D : Type} [DecidableEq D] {hashToken : Token → D}
  {auth : AuthConfSection} {table : AuthSessionTable D} {now : Int}
  {fresh : Token}

/-- A path that passes may hold tabs and line breaks, but not once it is
quoted. -/
theorem sameSite_of_sitePath {raw : List Char} (hraw : SitePath raw) :
    SameSite (quoteUrl raw) := by
  obtain ⟨rest, rfl⟩ := exists_of_sitePath hraw
  exact sameSite_quoteUrl (sitePath_cons_iff.mp hraw).1

theorem sameSite_loginUrl (nextPath nextQuery : List Char) :
    SameSite (loginUrl nextPath nextQuery) := by
  rw [loginUrl]
  split
  · decide
  · have hpath : "/login?".toList = '/' :: "login?".toList := by decide
    have hvisible : "/login?".toList.all
        (fun c => decide (0x20 < c.toNat)) = true := by decide
    rw [hpath] at hvisible
    rw [hpath, List.cons_append]
    refine sameSite_of_path (fun c hc => ?_) fun c hc => ?_
    · rw [← List.cons_append, List.mem_append] at hc
      rcases hc with hlogin | hquery
      · exact of_decide_eq_true (List.all_eq_true.mp hvisible c hlogin)
      · exact urlencode_visible hquery
    · have hfirst : "login?".toList.head? = some 'l' := by decide
      rw [List.head?_append, hfirst] at hc
      obtain rfl := Option.some.inj hc
      decide

/-- The login URL is also a path, so a redirect to it is to this site. -/
theorem sitePath_loginUrl (nextPath nextQuery : List Char) :
    SitePath (loginUrl nextPath nextQuery) := by
  rw [loginUrl]
  split
  · decide
  · exact sitePath_cons_iff.mpr ⟨nofun, nofun⟩

/-- Neither an answer to a request without a session nor one of a login route
sends the browser to another site. -/
theorem every_location_is_same_site (hashToken : Token → D)
    (auth : AuthConfSection) (table : AuthSessionTable D) (now : Int)
    (fresh : Token) (page : PageRequest) (endpoint : Endpoint) :
    (∀ url, (unauthenticatedResponse page).location? = some url →
      SameSite url) ∧
    ∀ url, (serve hashToken auth table now fresh endpoint).1.location? =
      some url → SameSite url := by
  constructor
  · intro url hurl
    rw [unauthenticatedResponse] at hurl
    split at hurl
    · cases hurl
    · split at hurl <;> obtain rfl := Option.some.inj hurl
      · exact sameSite_loginUrl _ _
      · exact sameSite_of_sitePath (sitePath_loginUrl _ _)
  · intro url hurl
    cases endpoint with
    | loginPage nextPath =>
        simp only [serve, loginPage] at hurl
        split at hurl
        · obtain rfl := Option.some.inj hurl
          exact sameSite_of_sitePath sitePath_root
        · cases hurl
    | loginSubmit username password nextPath =>
        simp only [serve, loginSubmit] at hurl
        split at hurl
        · obtain rfl := Option.some.inj hurl
          exact sameSite_of_sitePath sitePath_root
        · split at hurl
          · cases hurl
          · split at hurl
            · cases hurl
            · obtain rfl := Option.some.inj hurl
              exact sameSite_of_sitePath (sitePath_safeNextPath nextPath)
    | logoutSubmit cookie =>
        obtain rfl := Option.some.inj hurl
        decide
    | login username password =>
        simp only [serve, login] at hurl
        split at hurl
        · cases hurl
        · split at hurl
          · cases hurl
          · split at hurl <;> cases hurl
    | logout credentials =>
        simp only [serve, logout] at hurl
        split at hurl <;> cases hurl

/-- A visit that tries no right credentials and revokes nothing leaves the
sessions alone. -/
theorem serve_idle {endpoint : Endpoint}
    (hwrong : ∀ entry, endpoint.credentials? = some entry →
      credentialsMatch entry.1 entry.2 auth = false)
    (hkeeps : endpoint.revokes? = none) :
    (serve hashToken auth table now fresh endpoint).2 = table := by
  cases endpoint with
  | loginPage nextPath => rfl
  | loginSubmit username password nextPath =>
      have hmismatch := hwrong (username, password) rfl
      simp only [serve, loginSubmit, hmismatch]
      split <;> rfl
  | logoutSubmit cookie =>
      obtain rfl : cookie = none := hkeeps
      rfl
  | login username password =>
      have hmismatch := hwrong (username, password) rfl
      simp only [serve, login, hmismatch]
      split <;> rfl
  | logout credentials =>
      obtain rfl : credentials = none := hkeeps
      rfl

/-- Right credentials open a session, unless that raises. -/
theorem serve_login (hprotected : auth.enableLoginProtection = true)
    {endpoint : Endpoint} {entry : List Char × List Char}
    (hentry : endpoint.credentials? = some entry)
    (hmatch : credentialsMatch entry.1 entry.2 auth = true) :
    (serve hashToken auth table now fresh endpoint).2 =
      ((openSession hashToken table now auth.ttl fresh).map
        Prod.snd).getD table := by
  cases endpoint with
  | loginSubmit username password nextPath =>
      obtain rfl := Option.some.inj hentry
      simp only [serve, loginSubmit, hprotected, hmatch]
      cases openSession hashToken table now auth.ttl fresh <;> rfl
  | login username password =>
      obtain rfl := Option.some.inj hentry
      simp only [serve, login, hprotected, hmatch]
      cases openSession hashToken table now auth.ttl fresh <;> rfl
  | _ => cases hentry

theorem serve_logout {endpoint : Endpoint} {token : Token}
    (hrevokes : endpoint.revokes? = some token) :
    (serve hashToken auth table now fresh endpoint).2 =
      (revokeToken hashToken table token).2 := by
  cases endpoint with
  | logoutSubmit cookie =>
      obtain rfl : cookie = some token := hrevokes
      rfl
  | logout credentials =>
      obtain rfl : credentials = some token := hrevokes
      rfl
  | _ => cases hrevokes

end Runs

section Histories

variable {D : Type} [DecidableEq D] (hashToken : Token → D)
  (auth : AuthConfSection)

/-- The clock never goes backwards. -/
def AuthState.visit (state : AuthState D) (visit : Visit) :
    Option (AuthState D) :=
  if visit.now < state.clock then none
  else
    some ⟨(serve hashToken auth state.table visit.now visit.fresh
      visit.endpoint).2, visit.now⟩

/-- The visit is a login with the configured credentials, and this is the
token it is answered. -/
structure Visit.Opens (visit : Visit) (token : Token) : Prop where
  fresh : visit.fresh = token
  matched : ∃ entry, visit.endpoint.credentials? = some entry ∧
    credentialsMatch entry.1 entry.2 auth = true
  fits : visit.now + auth.ttl ≤ datetimeMax

/-- The token a login may be answered. -/
def Visit.issues? (visit : Visit) : Option Token :=
  visit.endpoint.credentials?.map fun _ => visit.fresh

/-- Somebody has logged in and been given the token, nobody has logged out
with it since, and the session has not run out. -/
def LoggedIn (visits : List Visit) (token : Token) (now : Int) : Prop :=
  ∃ (k : Nat) (visit : Visit), visits[k]? = some visit ∧
    visit.Opens auth token ∧
    (∀ (later : Nat) (other : Visit), k < later →
      visits[later]? = some other →
      other.endpoint.revokes? ≠ some token) ∧
    now < visit.now + auth.ttl

variable {auth} {visits : List Visit} {last : Visit} {token : Token}
  {now : Int}

theorem loggedIn_concat :
    LoggedIn auth (visits ++ [last]) token now ↔
      (LoggedIn auth visits token now ∧
        last.endpoint.revokes? ≠ some token) ∨
      (last.Opens auth token ∧ now < last.now + auth.ttl) := by
  constructor
  · rintro ⟨k, visit, hvisit, hopens, hkept, hbefore⟩
    rcases getElem?_concat_eq_some_iff.mp hvisit with hold | ⟨rfl, rfl⟩
    · have hlt := (List.getElem?_eq_some_iff.mp hold).1
      refine .inl ⟨⟨k, visit, hold, hopens, ?_, hbefore⟩, ?_⟩
      · intro later other hlater hother
        exact hkept later other hlater
          (getElem?_concat_eq_some_iff.mpr (.inl hother))
      · exact hkept visits.length last hlt
          (getElem?_concat_eq_some_iff.mpr (.inr ⟨rfl, rfl⟩))
    · exact .inr ⟨hopens, hbefore⟩
  · rintro (⟨⟨k, visit, hvisit, hopens, hkept, hbefore⟩, hlast⟩ |
      ⟨hopens, hbefore⟩)
    · refine ⟨k, visit, getElem?_concat_eq_some_iff.mpr (.inl hvisit),
        hopens, ?_, hbefore⟩
      intro later other hlater hother
      rcases getElem?_concat_eq_some_iff.mp hother with hold | ⟨-, rfl⟩
      · exact hkept later other hlater hold
      · exact hlast
    · refine ⟨visits.length, last,
        getElem?_concat_eq_some_iff.mpr (.inr ⟨rfl, rfl⟩), hopens, ?_,
        hbefore⟩
      intro later other hlater hother
      have hlt := (List.getElem?_eq_some_iff.mp hother).1
      rw [List.length_append, List.length_singleton] at hlt
      omega

theorem not_loggedIn_nil : ¬ LoggedIn auth [] token now := by
  rintro ⟨k, visit, hvisit, -⟩
  cases hvisit

/-- The tokens whose hashes the visit computes. -/
def Visit.tokens (visit : Visit) : List Token :=
  visit.issues?.toList ++ visit.endpoint.revokes?.toList

/-- From now on the table takes exactly the tokens somebody is logged in with,
and those were issued. -/
structure Guards (hashToken : Token → D) (auth : AuthConfSection)
    (tokens : List Token) (visits : List Visit) (state : AuthState D) :
    Prop where
  valid : ∀ token ∈ tokens, ∀ now, state.clock ≤ now →
    (isTokenValid hashToken state.table now token = true ↔
      LoggedIn auth visits token now)
  issued : ∀ token now, LoggedIn auth visits token now →
    token ∈ visits.filterMap Visit.issues?

variable {hashToken} {tokens : List Token} {state next : AuthState D}

theorem issued_concat
    (hissued : ∀ token now, LoggedIn auth visits token now →
      token ∈ visits.filterMap Visit.issues?) (token : Token) (now : Int)
    (hlive : LoggedIn auth (visits ++ [last]) token now) :
    token ∈ (visits ++ [last]).filterMap Visit.issues? := by
  rw [List.filterMap_append, List.mem_append]
  rcases loggedIn_concat.mp hlive with ⟨hold, -⟩ | ⟨hopens, -⟩
  · exact .inl (hissued token now hold)
  · obtain ⟨entry, hentry, -⟩ := hopens.matched
    refine .inr (List.mem_filterMap.mpr ⟨last, List.mem_singleton_self _, ?_⟩)
    rw [Visit.issues?, hentry, Option.map_some, hopens.fresh]

/-- A table from which the expired rows are gone refuses no fresh hash. -/
theorem openSession_fresh {table : AuthSessionTable D} {ttl : Int}
    (hfits : now + ttl ≤ datetimeMax)
    (hfresh : ¬ isTokenValid hashToken table now token = true) :
    ∃ opened, openSession hashToken table now ttl token =
      some (token, opened) := by
  have hfree : (table.deleteWhere fun row => row.expiresAt ≤ now).get?
      (hashToken token) = none := by
    rw [Option.eq_none_iff_forall_ne_some]
    intro row hrow
    rw [KeyedTable.get?_deleteWhere_eq_some_iff, decide_eq_false_iff_not]
      at hrow
    exact hfresh (isTokenValid_iff.mpr ⟨row, hrow.1, by omega⟩)
  have hroom : ∃ opened, (table.deleteWhere fun row =>
      row.expiresAt ≤ now).insert? ⟨hashToken token, now, now + ttl⟩ =
      some opened := KeyedTable.exists_insert? hfree
  obtain ⟨opened, hinsert⟩ := hroom
  refine ⟨opened, ?_⟩
  rw [openSession, if_neg (by omega), hinsert]
  rfl

theorem visit_eq_some (hvisit : state.visit hashToken auth last = some next) :
    state.clock ≤ last.now ∧ next.clock = last.now ∧
      next.table = (serve hashToken auth state.table last.now last.fresh
        last.endpoint).2 := by
  rw [AuthState.visit] at hvisit
  split at hvisit
  · cases hvisit
  · rename_i hclock
    obtain rfl := Option.some.inj hvisit
    exact ⟨Int.not_lt.mp hclock, rfl, rfl⟩

theorem revokes?_eq_none {endpoint : Endpoint} {entry : List Char × List Char}
    (hentry : endpoint.credentials? = some entry) :
    endpoint.revokes? = none := by
  cases endpoint <;> first | rfl | cases hentry

/-- A login: the token is taken from now on, for as long as a session
lasts. -/
theorem Guards.login (hguards : Guards hashToken auth tokens visits state)
    (hprotected : auth.enableLoginProtection = true)
    (hcollision : NoCollision hashToken tokens)
    (htokens : ∀ token ∈ last.tokens, token ∈ tokens)
    (hfresh : ∀ token ∈ last.issues?, token ∉ visits.filterMap Visit.issues?)
    {entry : List Char × List Char}
    (hentry : last.endpoint.credentials? = some entry)
    (hmatch : credentialsMatch entry.1 entry.2 auth = true)
    (hvisit : state.visit hashToken auth last = some next) :
    ∀ token ∈ tokens, ∀ now, next.clock ≤ now →
      (isTokenValid hashToken next.table now token = true ↔
        LoggedIn auth (visits ++ [last]) token now) := by
  obtain ⟨hclock, hnow, htable⟩ := visit_eq_some hvisit
  have hissues : last.issues? = some last.fresh := by
    rw [Visit.issues?, hentry, Option.map_some]
  have hmem : last.fresh ∈ tokens :=
    htokens _ (List.mem_append_left _ (by rw [hissues]; simp))
  have hnever : ∀ now, ¬ LoggedIn auth visits last.fresh now := fun now hlive =>
    hfresh _ hissues (hguards.issued _ now hlive)
  rw [serve_login hprotected hentry hmatch] at htable
  intro token htoken now hafter
  rw [hnow] at hafter
  have hold := hguards.valid token htoken now (Int.le_trans hclock hafter)
  rw [loggedIn_concat, revokes?_eq_none hentry]
  by_cases hfits : last.now + auth.ttl ≤ datetimeMax
  · have hinvalid : ¬ isTokenValid hashToken state.table last.now last.fresh =
        true := by
      rw [hguards.valid _ hmem _ hclock]
      exact hnever last.now
    obtain ⟨opened, hopen⟩ := openSession_fresh hfits hinvalid
    rw [hopen] at htable
    rw [htable, Option.map_some, Option.getD_some,
      isTokenValid_openSession hopen hafter]
    by_cases hsame : token = last.fresh
    · subst hsame
      have hopens : last.Opens auth last.fresh :=
        ⟨rfl, ⟨entry, hentry, hmatch⟩, hfits⟩
      simp [hnever now, hopens]
    · have hhash := fun heq =>
        hsame (hcollision token htoken last.fresh hmem heq)
      have hother : ¬ last.Opens auth token := fun hopens =>
        hsame hopens.fresh.symm
      rw [if_neg hhash, hold]
      simp [hother]
  · have hraised : openSession hashToken state.table last.now auth.ttl
        last.fresh = none := if_pos (Int.not_le.mp hfits)
    have hcloses : ¬ last.Opens auth token := fun hopens =>
      hfits hopens.fits
    rw [hraised] at htable
    rw [htable, Option.map_none, Option.getD_none, hold]
    simp [hcloses]

/-- A logout: this token is refused from now on. -/
theorem Guards.logout (hguards : Guards hashToken auth tokens visits state)
    (hcollision : NoCollision hashToken tokens)
    (htokens : ∀ token ∈ last.tokens, token ∈ tokens) {revoked : Token}
    (hrevokes : last.endpoint.revokes? = some revoked)
    (hvisit : state.visit hashToken auth last = some next) :
    ∀ token ∈ tokens, ∀ now, next.clock ≤ now →
      (isTokenValid hashToken next.table now token = true ↔
        LoggedIn auth (visits ++ [last]) token now) := by
  obtain ⟨hclock, hnow, htable⟩ := visit_eq_some hvisit
  have hmem : revoked ∈ tokens :=
    htokens _ (List.mem_append_right _ (by rw [hrevokes]; simp))
  have hcloses : ∀ token, ¬ last.Opens auth token := by
    rintro token ⟨-, ⟨entry, hentry, -⟩, -⟩
    rw [revokes?_eq_none hentry] at hrevokes
    cases hrevokes
  intro token htoken now hafter
  rw [hnow] at hafter
  rw [htable, serve_logout hrevokes, isTokenValid_revokeToken,
    hguards.valid token htoken now (Int.le_trans hclock hafter),
    loggedIn_concat, hrevokes]
  have hsame : hashToken token ≠ hashToken revoked ↔
      some revoked ≠ some token := by
    refine not_congr ⟨fun heq => ?_, fun heq => ?_⟩
    · rw [hcollision token htoken revoked hmem heq]
    · rw [Option.some.inj heq]
  rw [hsame]
  simp [hcloses token]

/-- Any other visit changes nothing. -/
theorem Guards.idle (hguards : Guards hashToken auth tokens visits state)
    (hwrong : ∀ entry, last.endpoint.credentials? = some entry →
      credentialsMatch entry.1 entry.2 auth = false)
    (hkeeps : last.endpoint.revokes? = none)
    (hvisit : state.visit hashToken auth last = some next) :
    ∀ token ∈ tokens, ∀ now, next.clock ≤ now →
      (isTokenValid hashToken next.table now token = true ↔
        LoggedIn auth (visits ++ [last]) token now) := by
  obtain ⟨hclock, hnow, htable⟩ := visit_eq_some hvisit
  have hcloses : ∀ token, ¬ last.Opens auth token := by
    rintro token ⟨-, ⟨entry, hentry, hmatch⟩, -⟩
    rw [hwrong entry hentry] at hmatch
    cases hmatch
  intro token htoken now hafter
  rw [hnow] at hafter
  rw [htable, serve_idle hwrong hkeeps,
    hguards.valid token htoken now (Int.le_trans hclock hafter),
    loggedIn_concat, hkeeps]
  simp [hcloses token]

/-- After every sequence of visits the table takes exactly the tokens somebody
is logged in with. -/
theorem guards_of_exec (hprotected : auth.enableLoginProtection = true)
    (hcollision : NoCollision hashToken tokens) {start : Int}
    {final : AuthState D}
    (hexec : exec (AuthState.visit hashToken auth) ⟨KeyedTable.empty, start⟩
      visits = some final)
    (hfresh : (visits.filterMap Visit.issues?).Nodup)
    (htokens : ∀ visit ∈ visits, ∀ token ∈ visit.tokens, token ∈ tokens) :
    Guards hashToken auth tokens visits final := by
  induction visits using List.reverseRecOn generalizing final with
  | nil =>
      obtain rfl := Option.some.inj hexec
      constructor
      · intro token _ now _
        simp [not_loggedIn_nil, isTokenValid, KeyedTable.empty,
          KeyedTable.get?]
      · exact fun token now hlive => absurd hlive not_loggedIn_nil
  | append_singleton visits last ih =>
      obtain ⟨middle, hbefore, hlast⟩ := exec_append_eq_some.mp hexec
      obtain ⟨next, hvisit, hnil⟩ := exec_cons_eq_some.mp hlast
      obtain rfl := Option.some.inj hnil
      have hdistinct := hfresh
      rw [List.filterMap_append, List.nodup_append] at hdistinct
      have hguards := ih hbefore hdistinct.1
        fun visit hmem => htokens visit (List.mem_append_left _ hmem)
      have hlastTokens := htokens last
        (List.mem_append_right _ List.mem_cons_self)
      refine ⟨?_, issued_concat hguards.issued⟩
      cases hrevokes : last.endpoint.revokes? with
      | some revoked =>
          exact hguards.logout hcollision hlastTokens hrevokes hvisit
      | none =>
          by_cases hmatched : ∃ entry, last.endpoint.credentials? = some entry ∧
              credentialsMatch entry.1 entry.2 auth = true
          · obtain ⟨entry, hentry, hmatch⟩ := hmatched
            refine hguards.login hprotected hcollision hlastTokens ?_ hentry
              hmatch hvisit
            intro token hissues hold
            refine hdistinct.2.2 token hold token ?_ rfl
            exact List.mem_filterMap.mpr
              ⟨last, List.mem_singleton_self _, hissues⟩
          · refine hguards.idle (fun entry hentry => ?_) hrevokes hvisit
            rw [← Bool.not_eq_true]
            exact fun hmatch => hmatched ⟨entry, hentry, hmatch⟩

/-- Whatever has been sent to the login routes, a request for a protected page
is passed on exactly if it presents a token that was answered to the configured
credentials, less than a session's time ago, and that nobody has logged out
with since. -/
theorem passes_iff_logged_in (hashToken : Token → D)
    (auth : AuthConfSection) (hprotected : auth.enableLoginProtection = true)
    (start now : Int) (visits : List Visit) (state : AuthState D)
    (request : AuthRequest)
    (hexec : exec (AuthState.visit hashToken auth) ⟨KeyedTable.empty, start⟩
      visits = some state)
    (hfresh : (visits.filterMap Visit.issues?).Nodup)
    (hcollision : NoCollision hashToken
      (visits.flatMap Visit.tokens ++ request.token?.toList))
    (hclock : state.clock ≤ now) (hexempt : ¬ request.Exempt) :
    dispatch hashToken auth.enableLoginProtection state.table now request =
        true ↔
      ∃ token, Presents request token ∧ LoggedIn auth visits token now := by
  have hguards := guards_of_exec hprotected hcollision hexec hfresh
    fun visit hvisit token htoken => List.mem_append_left _
      (List.mem_flatMap.mpr ⟨visit, hvisit, htoken⟩)
  have hdispatch : dispatch hashToken auth.enableLoginProtection state.table
      now request = true ↔ ∃ token, request.token? = some token ∧
        isTokenValid hashToken state.table now token = true := by
    rw [dispatch, hprotected]
    cases request.token? <;> simp [hexempt]
  rw [hdispatch]
  refine exists_congr fun token => ?_
  rw [← token?_eq_some_iff]
  refine and_congr_right fun htoken => ?_
  apply hguards.valid token _ now hclock
  rw [List.mem_append, htoken]
  exact .inr List.mem_cons_self

/-- A failed and a successful login in the browser, one over the API, and a
logout over the API. -/
def exampleVisits : List Visit :=
  [⟨0, "a".toList, .loginSubmit "admin".toList "tnue".toList none⟩,
    ⟨1, "b".toList, .loginSubmit "admin".toList "tune".toList
      (some "/import".toList)⟩,
    ⟨2, "c".toList, .login "admin".toList "tune".toList⟩,
    ⟨3, [], .logout (some "c".toList)⟩]

def examplePageRequest : AuthRequest := ⟨"/import", none, some "b".toList⟩

theorem passes_iff_logged_in_by_cookie :
    ∃ state, exec (AuthState.visit id exampleAuth) ⟨KeyedTable.empty, 0⟩
        exampleVisits = some state ∧
      (dispatch id exampleAuth.enableLoginProtection state.table 9
          examplePageRequest = true ↔
        ∃ token, Presents examplePageRequest token ∧
          LoggedIn exampleAuth exampleVisits token 9) := by
  refine ⟨_, rfl, passes_iff_logged_in id exampleAuth rfl 0 9 exampleVisits _
    examplePageRequest rfl ?_ ?_ ?_ ?_⟩
  · decide
  · unfold NoCollision
    decide
  · decide
  · decide

end Histories

end Beetkeeper
