/-
# Delphi.Auth.Verifier -- who a bearer token speaks for

`crates/auth`: the verifier of every service.  A token is decoded with the key its
header names, out of a cache that is replaced whole by what the JWKS endpoint last
answered; the claims become the caller's identity, tenant and roles.

Requests are verified side by side, each reading, fetching and replacing the cache as
it comes, and the endpoint may answer something else every time.  Whoever is let in
was vouched for by a published asymmetric key of just the kid the token names, used
with that key's algorithm and never the token's (`accepted_of_run`).

`jsonwebtoken`, the iteration order of a hash map and the texts of others' errors are
the parameters (`Libraries`).
-/
import Delphi.Document.Serde
import Delphi.Theory.Sessions

namespace Delphi.Auth

open Delphi.Theory
open Delphi.Document (Json trim)
open Delphi.Document.Json (toText toTexts)

set_option autoImplicit false

structure AuthContext where
  userId : String
  tenantId : String
  email : Option String
  roles : List String
  bearerSubject : String

def AuthContext.hasRole (auth : AuthContext) (role : String) : Bool :=
  auth.roles.any fun candidate => candidate = role

inductive AuthError where
  | missing
  | invalid (message : String)

/-! ## Claims -/

structure RoleAccess where
  roles : Option (List String)

/-- A hash map as the list of its entries. -/
structure InboundClaims where
  sub : Option String
  email : Option String
  tenantId : Option String
  roles : Option (List String)
  realmAccess : Option RoleAccess
  resourceAccess : Option (List (String × RoleAccess))

section Reading

variable {α : Type}

/-- An `Option` is read from `null` as `None`. -/
def orNull (read : Json → Option α) : Json → Option (Option α)
  | .null => some none
  | value => (read value).map some

def member (members : List (String × Json)) (name : String) (read : Json → Option α) :
    Option (Option α) :=
  match members.lookup name with
  | none => some none
  | some value => orNull read value

end Reading

/-- A struct is read from an object by name, or from an array of just its fields. -/
def RoleAccess.fromValue : Json → Option RoleAccess
  | .object members => do return ⟨← member members "roles" toTexts⟩
  | .array [roles] => do return ⟨← orNull toTexts roles⟩
  | _ => none

def accessMap : Json → Option (List (String × RoleAccess))
  | .object members => members.mapM fun entry => do
      return (entry.1, ← RoleAccess.fromValue entry.2)
  | _ => none

def InboundClaims.fromValue : Json → Option InboundClaims
  | .object members => do
      let sub ← member members "sub" toText
      let email ← member members "email" toText
      let tenantId ← member members "tenant_id" toText
      let roles ← member members "roles" toTexts
      let realmAccess ← member members "realm_access" RoleAccess.fromValue
      let resourceAccess ← member members "resource_access" accessMap
      return { sub, email, tenantId, roles, realmAccess, resourceAccess }
  | .array [sub, email, tenantId, roles, realmAccess, resourceAccess] => do
      return {
        sub := ← orNull toText sub
        email := ← orNull toText email
        tenantId := ← orNull toText tenantId
        roles := ← orNull toTexts roles
        realmAccess := ← orNull RoleAccess.fromValue realmAccess
        resourceAccess := ← orNull accessMap resourceAccess }
  | _ => none

/-! ## Roles -/

/-- The loop body: a role that is new and not blank goes at the end. -/
def addRole (normalized : List String) (role : String) : List String :=
  if trim role ≠ "" ∧ trim role ∉ normalized then normalized ++ [trim role] else normalized

def extendRoles (normalized : List String) (roles : Option (List String)) : List String :=
  (roles.getD []).foldl addRole normalized

/-- The accesses of the resources come in the order the map has them. -/
def normalizeRoles (flatRoles : Option (List String)) (realmAccess : Option RoleAccess)
    (resourceAccess : List RoleAccess) : List String :=
  resourceAccess.foldl (fun roles access => extendRoles roles access.roles)
    (extendRoles (extendRoles [] flatRoles) (realmAccess.bind RoleAccess.roles))

/-- Every role the claims name, wherever they do. -/
def InboundClaims.named (claims : InboundClaims) : List String :=
  claims.roles.getD [] ++ (claims.realmAccess.bind RoleAccess.roles).getD [] ++
    ((claims.resourceAccess.getD []).map Prod.snd).flatMap fun access => access.roles.getD []

/-! ## Keys -/

inductive Algorithm where
  | hs256 | hs384 | hs512
  | rs256 | rs384 | rs512
  | es256 | es384
  | ps256 | ps384 | ps512
  | edDsa
deriving DecidableEq

def Algorithm.isSymmetric (algorithm : Algorithm) : Bool :=
  algorithm = .hs256 || algorithm = .hs384 || algorithm = .hs512

/-- A key's own algorithm; some are no signature algorithms. -/
inductive KeyAlgorithm where
  | hs256 | hs384 | hs512
  | rs256 | rs384 | rs512
  | es256 | es384
  | ps256 | ps384 | ps512
  | edDsa
  | rsa1_5 | rsaOaep | rsaOaep256
  | unknown

/-- What kind of key the parameters are; `material` is the rest of them. -/
inductive AlgorithmParameters where
  | ellipticCurve (material : String)
  | rsa (material : String)
  | octetKey (material : String)
  | octetKeyPair (material : String)

structure Jwk where
  keyId : Option String
  keyAlgorithm : Option KeyAlgorithm
  algorithm : AlgorithmParameters

structure JwkSet where
  keys : List Jwk

structure DecodingKey where
  material : String

structure CachedKey where
  key : DecodingKey
  alg : Algorithm

/-- The part of `jsonwebtoken`'s options the service sets; the rest stay at their defaults. -/
structure Validation where
  algorithm : Algorithm
  issuer : Option String
  audience : Option String

/-- What is not the crate's own. -/
structure Libraries where
  decodeHeader : String → Except String (Option String)
  fromJwk : Jwk → Option DecodingKey
  decode : String → DecodingKey → Validation → Except String Json
  claimsError : Json → String
  debug : String → String
  order : List RoleAccess → List RoleAccess
  order_perm : ∀ accesses, (order accesses).Perm accesses

def isAsymmetric : AlgorithmParameters → Bool
  | .rsa _ => true
  | .ellipticCurve _ => true
  | .octetKeyPair _ => true
  | .octetKey _ => false

def asymmetricAlgToAlg : KeyAlgorithm → Option Algorithm
  | .rs256 => some .rs256
  | .rs384 => some .rs384
  | .rs512 => some .rs512
  | .es256 => some .es256
  | .es384 => some .es384
  | .ps256 => some .ps256
  | .ps384 => some .ps384
  | .ps512 => some .ps512
  | .edDsa => some .edDsa
  | _ => none

def inferAlgFromParams : AlgorithmParameters → Option Algorithm
  | .rsa _ => some .rs256
  | .ellipticCurve _ => some .es256
  | .octetKeyPair _ => some .edDsa
  | .octetKey _ => none

def algOf (jwk : Jwk) : Option Algorithm :=
  (jwk.keyAlgorithm.bind asymmetricAlgToAlg).or (inferAlgFromParams jwk.algorithm)

abbrev Cache := List (String × CachedKey)

/-- `HashMap::insert` -/
def Cache.insert (cache : Cache) (kid : String) (key : CachedKey) : Cache :=
  (kid, key) :: cache.filter fun entry => entry.1 ≠ kid

/-- The entry of a key that can be used. -/
def usable (libraries : Libraries) (jwk : Jwk) : Option (String × CachedKey) :=
  match jwk.keyId with
  | none => none
  | some kid =>
      if isAsymmetric jwk.algorithm then
        match algOf jwk with
        | none => none
        | some alg => (libraries.fromJwk jwk).map fun key => (kid, ⟨key, alg⟩)
      else none

def cachedKeys (libraries : Libraries) (set : JwkSet) : Cache :=
  set.keys.foldl (fun cache jwk =>
    match usable libraries jwk with
    | none => cache
    | some (kid, key) => cache.insert kid key) []

/-! ## Validation -/

inductive ValidationError where
  | malformed (message : String)
  | rejected (message : String)
  | jwksFetch (message : String)
  | unknownKid (kid : String)

def ValidationError.display (libraries : Libraries) : ValidationError → String
  | .malformed message => "malformed JWT: " ++ message
  | .rejected message => "signature or claim validation failed: " ++ message
  | .jwksFetch message => "JWKS fetch failed: " ++ message
  | .unknownKid kid => "no JWKS key matches kid " ++ libraries.debug kid

structure JwksValidator where
  expectedIssuer : Option String
  expectedAudience : Option String

inductive AuthCall where
  | readCache (kid : String)
  | fetchJwks
  | writeCache (next : Cache)

@[reducible] def AuthCall.Ans : AuthCall → Type
  | .readCache _ => Option CachedKey
  | .fetchJwks => Except String JwkSet
  | .writeCache _ => Unit

abbrev AuthPorts : Signature := ⟨AuthCall, AuthCall.Ans⟩

namespace JwksValidator

variable (libraries : Libraries) (validator : JwksValidator)

def validation (alg : Algorithm) : Validation :=
  ⟨alg, validator.expectedIssuer, validator.expectedAudience⟩

def refresh : Program AuthPorts (Except ValidationError Unit) := do
  match ← (Program.perform (S := AuthPorts) .fetchJwks :
      Program AuthPorts (Except String JwkSet)) with
  | .error message => return .error (.jwksFetch message)
  | .ok set =>
      Program.perform (S := AuthPorts) (.writeCache (cachedKeys libraries set))
      return .ok ()

/-- The cache stays locked while the token is decoded. -/
def tryCached (jwt kid : String) : Program AuthPorts (Except ValidationError (Option Json)) := do
  match ← (Program.perform (S := AuthPorts) (.readCache kid) :
      Program AuthPorts (Option CachedKey)) with
  | none => return .ok none
  | some cached =>
      match libraries.decode jwt cached.key (validator.validation cached.alg) with
      | .ok claims => return .ok (some claims)
      | .error message => return .error (.rejected message)

def validate (jwt : String) : Program AuthPorts (Except ValidationError Json) :=
  match libraries.decodeHeader jwt with
  | .error message => return .error (.malformed message)
  | .ok none => return .error (.malformed "JWT header missing kid")
  | .ok (some kid) => do
      match ← tryCached libraries validator jwt kid with
      | .error error => return .error error
      | .ok (some claims) => return .ok claims
      | .ok none =>
      match ← refresh libraries with
      | .error error => return .error error
      | .ok () =>
      match ← tryCached libraries validator jwt kid with
      | .error error => return .error error
      | .ok (some claims) => return .ok claims
      | .ok none => return .error (.unknownKid kid)

end JwksValidator

/-! ## The verifier -/

abbrev Headers := List (String × List UInt8)

/-- `HeaderValue::to_str`: visible ASCII and tabs only. -/
def toStr (value : List UInt8) : Option String :=
  if value.all fun byte => byte = 9 ∨ 32 ≤ byte ∧ byte < 127 then
    some (String.ofList (value.map fun byte => Char.ofNat byte.toNat))
  else none

def stripFront (front value : String) : Option String :=
  if front.toList.isPrefixOf value.toList then
    some (String.ofList (value.toList.drop front.toList.length))
  else none

def bearerToken (headers : Headers) : Option String := do
  let value ← toStr (← headers.lookup "authorization")
  (stripFront "Bearer " value).or (stripFront "bearer " value)

structure AuthVerifier where
  validator : JwksValidator
  defaultTenant : String

/-- What the claims make of the caller. -/
def AuthVerifier.contextOf (libraries : Libraries) (verifier : AuthVerifier) (bearer : String)
    (payload : Json) : Except AuthError AuthContext :=
  match InboundClaims.fromValue payload with
  | none => .error (.invalid ("decode JWT payload: " ++ libraries.claimsError payload))
  | some inbound =>
      match inbound.sub with
      | none => .error (.invalid "JWT missing required sub claim")
      | some sub => .ok {
          userId := sub
          tenantId := inbound.tenantId.getD verifier.defaultTenant
          email := inbound.email
          roles := normalizeRoles inbound.roles inbound.realmAccess
            (libraries.order ((inbound.resourceAccess.getD []).map Prod.snd))
          bearerSubject := "Bearer " ++ bearer }

abbrev Verified := Except AuthError AuthContext

def AuthVerifier.verifyHeaders (libraries : Libraries) (verifier : AuthVerifier)
    (headers : Headers) : Program AuthPorts Verified :=
  match bearerToken headers with
  | none => return .error .missing
  | some bearer => do
      match ← verifier.validator.validate libraries bearer with
      | .error error => return .error (.invalid (error.display libraries))
      | .ok payload => return verifier.contextOf libraries bearer payload

/-! ## Facts about roles and keys -/

section Facts

theorem mem_addRole {normalized : List String} {role named : String} :
    role ∈ addRole normalized named ↔ role ∈ normalized ∨ role ≠ "" ∧ trim named = role := by
  unfold addRole
  split
  · rename_i fresh
    rw [List.mem_append, List.mem_singleton]
    constructor
    · rintro (old | rfl)
      · exact .inl old
      · exact .inr ⟨fresh.1, rfl⟩
    · rintro (old | ⟨-, rfl⟩)
      · exact .inl old
      · exact .inr rfl
  · rename_i known
    constructor
    · exact .inl
    · rintro (old | ⟨filled, rfl⟩)
      · exact old
      · by_contra absent
        exact known ⟨filled, absent⟩

theorem nodup_addRole {normalized : List String} (distinct : normalized.Nodup) (named : String) :
    (addRole normalized named).Nodup := by
  unfold addRole
  split
  · rename_i fresh
    exact List.nodup_append.mpr ⟨distinct, List.nodup_singleton _, fun role old other last same =>
      fresh.2 (List.mem_singleton.mp last ▸ same ▸ old)⟩
  · exact distinct

theorem mem_foldl_addRole {role : String} (names normalized : List String) :
    role ∈ names.foldl addRole normalized ↔
      role ∈ normalized ∨ role ≠ "" ∧ ∃ named ∈ names, trim named = role := by
  induction names generalizing normalized with
  | nil => simp
  | cons named rest ih =>
      rw [List.foldl_cons, ih, mem_addRole, List.exists_mem_cons_iff, or_assoc, ← and_or_left]

theorem nodup_foldl_addRole (names : List String) {normalized : List String}
    (distinct : normalized.Nodup) : (names.foldl addRole normalized).Nodup := by
  induction names generalizing normalized with
  | nil => exact distinct
  | cons named rest ih => exact ih (nodup_addRole distinct named)

/-- All the loops are one over the roles named, in order. -/
theorem normalizeRoles_eq (flatRoles : Option (List String)) (realmAccess : Option RoleAccess)
    (resourceAccess : List RoleAccess) :
    normalizeRoles flatRoles realmAccess resourceAccess =
      (flatRoles.getD [] ++ (realmAccess.bind RoleAccess.roles).getD [] ++
        resourceAccess.flatMap fun access => access.roles.getD []).foldl addRole [] := by
  unfold normalizeRoles extendRoles
  rw [List.foldl_append, List.foldl_append, List.foldl_flatMap]

/-- The caller has the roles the claims name, trimmed, but for blank ones. -/
theorem mem_normalizeRoles (libraries : Libraries) (claims : InboundClaims) (role : String) :
    role ∈ normalizeRoles claims.roles claims.realmAccess
        (libraries.order ((claims.resourceAccess.getD []).map Prod.snd)) ↔
      role ≠ "" ∧ ∃ named ∈ claims.named, trim named = role := by
  rw [normalizeRoles_eq, mem_foldl_addRole]
  simp only [List.not_mem_nil, false_or, InboundClaims.named, List.mem_append, List.mem_flatMap,
    (libraries.order_perm _).mem_iff]

variable {libraries : Libraries}

theorem mem_insert {cache : Cache} {kid : String} {key : CachedKey} {entry : String × CachedKey}
    (mem : entry ∈ cache.insert kid key) : entry = (kid, key) ∨ entry ∈ cache := by
  rcases List.mem_cons.mp mem with new | old
  · exact .inl new
  · exact .inr (List.mem_filter.mp old).1

/-- Every cached key is of a usable key of the set. -/
theorem mem_cachedKeys {set : JwkSet} {entry : String × CachedKey}
    (mem : entry ∈ cachedKeys libraries set) :
    ∃ jwk ∈ set.keys, usable libraries jwk = some entry := by
  have step : ∀ (keys : List Jwk) (cache : Cache),
      entry ∈ keys.foldl (fun cache jwk =>
        match usable libraries jwk with
        | none => cache
        | some (kid, key) => cache.insert kid key) cache →
      entry ∈ cache ∨ ∃ jwk ∈ keys, usable libraries jwk = some entry := by
    intro keys
    induction keys with
    | nil => exact fun cache old => .inl old
    | cons jwk rest ih =>
        intro cache later
        rcases ih _ later with here | ⟨other, inRest, used⟩
        · cases found : usable libraries jwk with
          | none => exact .inl (by simpa only [found] using here)
          | some pair =>
              simp only [found] at here
              rcases mem_insert here with rfl | old
              · exact .inr ⟨jwk, List.mem_cons_self, found⟩
              · exact .inl old
        · exact .inr ⟨other, List.mem_cons_of_mem _ inRest, used⟩
  rcases step set.keys [] mem with impossible | found
  · cases impossible
  · exact found

theorem usable_eq_some {jwk : Jwk} {kid : String} {cached : CachedKey}
    (used : usable libraries jwk = some (kid, cached)) :
    jwk.keyId = some kid ∧ isAsymmetric jwk.algorithm = true ∧ algOf jwk = some cached.alg ∧
      libraries.fromJwk jwk = some cached.key := by
  unfold usable at used
  split at used
  · cases used
  · rename_i own named
    split at used
    · rename_i asymmetric
      split at used
      · cases used
      · rename_i alg known
        obtain ⟨key, parsed, same⟩ := Option.map_eq_some_iff.mp used
        cases same
        exact ⟨named, asymmetric, known, parsed⟩
    · cases used

/-- No key is used with a shared secret's algorithm. -/
theorem not_isSymmetric_algOf {jwk : Jwk} {alg : Algorithm} (known : algOf jwk = some alg) :
    alg.isSymmetric = false := by
  have own : ∀ algorithm, asymmetricAlgToAlg algorithm = some alg → alg.isSymmetric = false := by
    intro algorithm mapped
    cases algorithm <;> cases mapped <;> rfl
  unfold algOf at known
  rcases Option.or_eq_some_iff.mp known with declared | ⟨-, inferred⟩
  · obtain ⟨algorithm, -, mapped⟩ := Option.bind_eq_some_iff.mp declared
    exact own algorithm mapped
  · cases kind : jwk.algorithm <;> rw [kind] at inferred <;> cases inferred <;> rfl

end Facts

/-! ## Runs -/

/-- The cache, and the sets the endpoint has answered with. -/
structure JwksWorld where
  cache : Cache
  fetched : List JwkSet

namespace JwksWorld

def empty : JwksWorld := ⟨[], []⟩

/-- The endpoint answers with any set. -/
def serves (w : JwksWorld) : (op : AuthCall) → op.Ans → JwksWorld → Prop
  | .readCache kid, answer, w' => answer = w.cache.lookup kid ∧ w' = w
  | .fetchJwks, .ok set, w' => w' = { w with fetched := set :: w.fetched }
  | .fetchJwks, .error _, w' => w' = w
  | .writeCache next, _, w' => w' = { w with cache := next }

end JwksWorld

structure Verification where
  verifier : AuthVerifier
  headers : Headers

/-- Requests verified side by side. -/
def verifications (libraries : Libraries) : System AuthPorts JwksWorld Verification Verified where
  main input := input.verifier.verifyHeaders libraries input.headers
  admits _ _ := True
  serves _ op w answer w' := w.serves op answer w'
  environment _ _ := False

section Run

variable (libraries : Libraries)

/-- A key of a set the endpoint answered with. -/
def Published (w : JwksWorld) (kid : String) (cached : CachedKey) : Prop :=
  ∃ set ∈ w.fetched, (kid, cached) ∈ cachedKeys libraries set

def jwksFacts : Invariants AuthPorts JwksWorld Verification where
  inv w := w.cache = [] ∨ ∃ set ∈ w.fetched, w.cache = cachedKeys libraries set
  input _ _ := True
  fact _ w _ op answer := match op, answer with
    | .readCache kid, some cached => Published libraries w kid cached
    | .fetchJwks, .ok set => set ∈ w.fetched
    | _, _ => True

/-- A fetch comes right after a miss, and what is written is what was fetched. -/
def Orderly (trace : Trace AuthPorts) : AuthCall → Prop
  | .readCache _ => True
  | .fetchJwks => ∃ kid, trace = [⟨.readCache kid, none⟩]
  | .writeCache next => ∃ set, (⟨.fetchJwks, .ok set⟩ : Call AuthPorts) ∈ trace ∧
      next = cachedKeys libraries set

/-- The claims came out of the token under a published key. -/
def Vouched (validator : JwksValidator) (w : JwksWorld) (jwt : String) (claims : Json) : Prop :=
  ∃ kid cached, libraries.decodeHeader jwt = .ok (some kid) ∧ Published libraries w kid cached ∧
    libraries.decode jwt cached.key (validator.validation cached.alg) = .ok claims

variable {libraries} {w : JwksWorld} {validator : JwksValidator} {input : Verification}

theorem along_tryCached {jwt kid : String} {trace : Trace AuthPorts}
    (named : libraries.decodeHeader jwt = .ok (some kid)) :
    Along ((jwksFacts libraries).fact input w) (Orderly libraries)
      (fun reached result => match result with
        | .ok (some claims) => Vouched libraries validator w jwt claims
        | .ok none => reached = trace ++ [⟨.readCache kid, none⟩]
        | .error _ => True) trace (validator.tryCached libraries jwt kid) := by
  refine along_perform trivial fun answer published => ?_
  cases answer with
  | none => rfl
  | some cached =>
      dsimp only
      cases decoded : libraries.decode jwt cached.key (validator.validation cached.alg) with
      | error message => trivial
      | ok claims => exact ⟨kid, cached, named, published, decoded⟩

theorem along_validate (jwt : String) :
    Along ((jwksFacts libraries).fact input w) (Orderly libraries)
      (fun _ result => ∀ claims, result = .ok claims → Vouched libraries validator w jwt claims) []
      (validator.validate libraries jwt) := by
  unfold JwksValidator.validate
  cases named : libraries.decodeHeader jwt with
  | error message => exact nofun
  | ok header =>
  cases header with
  | none => exact nofun
  | some kid =>
  refine (along_tryCached named).bind ?_
  rintro reached (error | _ | claims) told
  · exact nofun
  · subst told
    refine along_perform ⟨kid, rfl⟩ fun answer fetched => ?_
    cases answer with
    | error message => exact nofun
    | ok set =>
        refine along_perform ⟨set, by simp, rfl⟩ fun _ _ => ?_
        refine (along_tryCached named).bind ?_
        rintro reached (error | _ | claims) told
        · exact nofun
        · exact nofun
        · rintro _ ⟨⟩
          exact told
  · rintro _ ⟨⟩
    exact told

theorem along_verifyHeaders (verifier : AuthVerifier) (headers : Headers) :
    Along ((jwksFacts libraries).fact input w) (Orderly libraries)
      (fun _ result => ∀ context, result = .ok context → ∃ bearer claims,
        bearerToken headers = some bearer ∧
        Vouched libraries verifier.validator w bearer claims ∧
        verifier.contextOf libraries bearer claims = .ok context) []
      (verifier.verifyHeaders libraries headers) := by
  unfold AuthVerifier.verifyHeaders
  cases given : bearerToken headers with
  | none => exact nofun
  | some bearer =>
      refine (along_validate bearer).bind ?_
      rintro reached (error | claims) vouched
      · exact nofun
      · exact fun context same => ⟨bearer, claims, rfl, vouched claims rfl, same⟩

theorem holds_verifications {c : Config AuthPorts JwksWorld Verification Verified}
    (reached : (verifications libraries).Reaches System.anyStep ⟨.empty, []⟩ c) :
    (jwksFacts libraries).Holds (verifications libraries) c := by
  refine Invariants.holds_of_reaches (I := jwksFacts libraries) (.inl rfl)
    (fun _ _ _ _ => trivial) ?_ (fun _ _ _ impossible => impossible.elim) reached
  intro c n t op next answer w' holds found stands served _
  have knows := holds.tasks t (System.mem_of_found found)
  have orderly : Orderly libraries t.trace op :=
    knows.issues (along_verifyHeaders t.input.verifier t.input.headers) stands
  cases op with
  | readCache kid =>
      obtain ⟨rfl, rfl⟩ := served
      refine ⟨.refl _ holds.inv, ?_⟩
      cases hit : c.shared.cache.lookup kid with
      | none => trivial
      | some cached =>
          obtain ⟨front, back, split, -⟩ := List.lookup_eq_some_iff.mp hit
          have mem : (kid, cached) ∈ c.shared.cache :=
            split ▸ List.mem_append_right _ List.mem_cons_self
          rcases holds.inv with none_ | ⟨set, known, same⟩
          · rw [none_] at mem
            cases mem
          · exact ⟨set, known, same ▸ mem⟩
  | fetchJwks =>
      cases answer with
      | error message =>
          obtain rfl := served
          exact ⟨.refl _ holds.inv, trivial⟩
      | ok set =>
          obtain rfl := served
          refine ⟨⟨?_, fun _ _ => trivial, ?_⟩, List.mem_cons_self⟩
          · exact holds.inv.imp id fun ⟨set, known, same⟩ =>
              ⟨set, List.mem_cons_of_mem _ known, same⟩
          · intro input trace op answer told
            cases op with
            | readCache kid =>
                cases answer with
                | none => trivial
                | some cached =>
                    obtain ⟨set, known, mem⟩ := told
                    exact ⟨set, List.mem_cons_of_mem _ known, mem⟩
            | fetchJwks =>
                cases answer with
                | error message => trivial
                | ok other => exact List.mem_cons_of_mem _ told
            | writeCache next => trivial
  | writeCache next =>
      obtain rfl := served
      obtain ⟨set, fetched, rfl⟩ := orderly
      have known : set ∈ c.shared.fetched := (knows.facts.of_mem fetched).choose_spec
      exact ⟨⟨.inr ⟨set, known, rfl⟩, fun _ _ => trivial, fun _ _ _ _ told => told⟩, trivial⟩

/-- In every run, the cache is what one answer of the endpoint amounts to, or empty, and no request
fetches keys more than once, nor before missing its own.  Whoever is let in gave a bearer token that
decodes under an asymmetric key of the token's kid, from an answer of the endpoint, with that key's
algorithm; the identity and the tenant are the claims', and the roles just those the claims name. -/
theorem accepted_of_run {c : Config AuthPorts JwksWorld Verification Verified}
    (reached : (verifications libraries).Reaches System.anyStep ⟨.empty, []⟩ c) :
    (c.shared.cache = [] ∨ ∃ set ∈ c.shared.fetched, c.shared.cache = cachedKeys libraries set) ∧
    ∀ t ∈ c.tasks,
      (∀ before answer after, t.trace = before ++ ⟨.fetchJwks, answer⟩ :: after →
        ∃ kid, before = [⟨.readCache kid, none⟩]) ∧
      ∀ context, t.rest = .ret (.ok context) →
        (∃ bearer kid jwk key alg claims inbound, bearerToken t.input.headers = some bearer ∧
          libraries.decodeHeader bearer = .ok (some kid) ∧
          (∃ set ∈ c.shared.fetched, jwk ∈ set.keys) ∧ jwk.keyId = some kid ∧
          isAsymmetric jwk.algorithm = true ∧ alg.isSymmetric = false ∧ algOf jwk = some alg ∧
          libraries.fromJwk jwk = some key ∧
          libraries.decode bearer key ⟨alg, t.input.verifier.validator.expectedIssuer,
            t.input.verifier.validator.expectedAudience⟩ = .ok claims ∧
          InboundClaims.fromValue claims = some inbound ∧ inbound.sub = some context.userId ∧
          context.tenantId = inbound.tenantId.getD t.input.verifier.defaultTenant ∧
          ∀ role, context.hasRole role = true ↔
            role ≠ "" ∧ ∃ named ∈ inbound.named, trim named = role) ∧
        context.roles.Nodup := by
  have holds := holds_verifications reached
  refine ⟨holds.inv, fun t mem => ?_⟩
  have knows := holds.tasks t mem
  refine ⟨fun before answer after split => ?_, fun context returned => ?_⟩
  · have issued := Along.facts (along_verifyHeaders t.input.verifier t.input.headers) knows.resumes
      knows.facts
    exact issued before .fetchJwks answer after split
  obtain ⟨bearer, claims, given, vouched, same⟩ :=
    knows.returns (along_verifyHeaders t.input.verifier t.input.headers) returned context rfl
  obtain ⟨kid, cached, named, ⟨set, known, inCache⟩, decoded⟩ := vouched
  obtain ⟨jwk, inSet, used⟩ := mem_cachedKeys inCache
  obtain ⟨id, asymmetric, alg, key⟩ := usable_eq_some used
  unfold AuthVerifier.contextOf at same
  cases read : InboundClaims.fromValue claims with
  | none => rw [read] at same; cases same
  | some inbound =>
  rw [read] at same
  dsimp only at same
  cases subject : inbound.sub with
  | none => rw [subject] at same; cases same
  | some sub =>
  rw [subject] at same
  cases same
  refine ⟨⟨bearer, kid, jwk, cached.key, cached.alg, claims, inbound, given, named,
    ⟨set, known, inSet⟩, id, asymmetric, not_isSymmetric_algOf alg, alg, key, decoded, read,
    subject, rfl, fun role => ?_⟩, ?_⟩
  · rw [← mem_normalizeRoles libraries inbound role]
    simp [AuthContext.hasRole]
  · show (normalizeRoles _ _ _).Nodup
    rw [normalizeRoles_eq]
    exact nodup_foldl_addRole _ List.nodup_nil

end Run

/-! ## Keys that rotate -/

namespace Sample

def claims : Json :=
  .object [("sub", .string "ann"), ("roles", .array [.string " ingester "]),
    ("realm_access", .object [("roles", .array [.string "ingester", .string ""])])]

/-- Tokens name the key that signed them. -/
def libraries : Libraries where
  decodeHeader jwt := .ok (some jwt)
  fromJwk jwk := some ⟨jwk.keyId.getD ""⟩
  decode jwt key _ := if key.material = jwt then .ok claims else .error "InvalidSignature"
  claimsError _ := "invalid type"
  debug text := "\"" ++ text ++ "\""
  order accesses := accesses
  order_perm _ := .refl _

def request (kid : String) : Verification :=
  ⟨⟨⟨some "https://id.test", none⟩, "tenant-a"⟩,
    [("authorization", ("bearer " ++ kid).toList.map fun c => c.toNat.toUInt8)]⟩

def setOf (kid : String) : JwkSet :=
  ⟨[⟨some "shared", some .hs256, .octetKey "secret"⟩,
    ⟨some kid, some .es256, .ellipticCurve "P-256"⟩]⟩

/-- The endpoint has turned to another key by the second request. -/
def answer (n : Nat) (w : JwksWorld) : (op : AuthCall) → op.Ans
  | .readCache kid => w.cache.lookup kid
  | .fetchJwks => .ok (setOf (if n = 0 then "k1" else "k2"))
  | .writeCache _ => ()

def after (n : Nat) (w : JwksWorld) : AuthCall → JwksWorld
  | .readCache _ => w
  | .fetchJwks => { w with fetched := setOf (if n = 0 then "k1" else "k2") :: w.fetched }
  | .writeCache next => { w with cache := next }

def serving : (verifications libraries).Serving where
  answer n op w := answer n w op
  after n op w := after n w op
  ready _ _ _ := true
  lawful n op w _ := by
    cases op with
    | readCache kid => exact ⟨rfl, rfl⟩
    | fetchJwks => rfl
    | writeCache next => rfl

/-- Both miss and fetch; the later answer is stored first. -/
def rotated : Config AuthPorts JwksWorld Verification Verified :=
  [0, 1, 0, 1, 1, 1, 0, 0].foldl serving.serve ⟨.empty,
    [(verifications libraries).started (request "k1"),
      (verifications libraries).started (request "k2")]⟩

theorem reaches_rotated :
    (verifications libraries).Reaches System.anyStep ⟨.empty, []⟩ rotated :=
  (((System.Reaches.refl _).spawned (request "k1") trivial trivial).spawned (request "k2") trivial
    trivial).served serving _

def rolesOf (t : Task AuthPorts Verification Verified) : Option (List String) :=
  (t.rest.returned.bind Except.toOption).map AuthContext.roles

/-- Both requests are let in, and the cache is left as the first answer has it. -/
theorem accepted_of_run_rotated :
    rotated.tasks.map rolesOf = [some ["ingester"], some ["ingester"]] ∧
    (∃ set ∈ rotated.shared.fetched, rotated.shared.cache = cachedKeys libraries set) ∧
    ∃ t ∈ rotated.tasks, ∃ context, t.rest = .ret (.ok context) ∧
      (∃ jwk : Jwk, (∃ set ∈ rotated.shared.fetched, jwk ∈ set.keys) ∧
        isAsymmetric jwk.algorithm = true) ∧ context.roles.Nodup := by
  have ends : rotated.tasks.map rolesOf = [some ["ingester"], some ["ingester"]] := by
    decide +kernel
  obtain ⟨cached, tasks⟩ := accepted_of_run reaches_rotated
  refine ⟨ends, cached.resolve_left (by decide +kernel), ?_⟩
  have some_ : some ["ingester"] ∈ rotated.tasks.map rolesOf := by
    rw [ends]
    exact List.mem_cons_self
  obtain ⟨t, mem, roles⟩ := List.mem_map.mp some_
  obtain ⟨context, returned, -⟩ := Option.map_eq_some_iff.mp roles
  obtain ⟨result, stands, accepted⟩ := Option.bind_eq_some_iff.mp returned
  obtain rfl : result = .ok context := by
    cases result with
    | error error => cases accepted
    | ok other => exact congrArg _ (Option.some.inj accepted)
  have ret := Program.eq_ret_of_returned stands
  obtain ⟨⟨_, _, jwk, _, _, _, _, _, _, published, -, asymmetric, _⟩, distinct⟩ :=
    (tasks t mem).2 context ret
  exact ⟨t, mem, context, ret, ⟨jwk, published, asymmetric⟩, distinct⟩

end Sample

end Delphi.Auth
