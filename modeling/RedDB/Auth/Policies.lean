import RedDB.Library.Text

namespace RedDB.Auth

open Library

inductive Effect
  | allow
  | deny
  deriving DecidableEq

/-- `prefixed verb` is written `verb:*`. -/
inductive ActionPattern
  | exact (action : String)
  | wildcard
  | prefixed (verb : String)
  deriving DecidableEq

inductive ResourcePattern
  | exact (kind name : String)
  | glob (raw : String)
  | wildcard
  deriving DecidableEq

inductive IpAddr
  | v4 (octets : BitVec 32)
  | v6 (octets : BitVec 128)
  deriving DecidableEq

def IpAddr.bits : IpAddr → Nat
  | .v4 _ => 32
  | .v6 _ => 128

structure IpCidr where
  addr : IpAddr
  prefixLen : Nat
  fits : prefixLen ≤ addr.bits
  deriving DecidableEq

/-- `fromMinute > toMinute` is a window over midnight. -/
structure TimeWindow where
  fromMinute : Nat
  toMinute : Nat
  tzOffsetSecs : Int
  deriving DecidableEq

structure Condition where
  expiresAt : Option Nat
  validFrom : Option Nat
  tenantMatch : Option Bool
  sourceIp : Option (List IpCidr)
  mfa : Option Bool
  timeWindow : Option TimeWindow
  platformScoped : Option Bool
  deriving DecidableEq

structure Statement where
  sid : Option String
  effect : Effect
  actions : List ActionPattern
  resources : List ResourcePattern
  condition : Option Condition
  deriving DecidableEq

structure Policy where
  id : String
  statements : List Statement
  tenant : Option String
  deriving DecidableEq

structure ResourceRef where
  kind : String
  name : String
  tenant : Option String
  deriving DecidableEq

structure EvalContext where
  principalTenant : Option String
  currentTenant : Option String
  peerIp : Option IpAddr
  mfaPresent : Bool
  nowMs : Nat
  principalIsAdminRole : Bool
  principalIsPlatformScoped : Bool
  deriving DecidableEq

inductive Decision
  | allow (matchedPolicyId : String) (matchedSid : Option String)
  | deny (matchedPolicyId : String) (matchedSid : Option String)
  | defaultDeny
  | adminBypass
  deriving DecidableEq

section

structure CompiledPattern where
  prefixText : List Char
  suffixText : List Char
  containsSegments : List (List Char)
  deriving DecidableEq

def compileGlob (pattern : List Char) : CompiledPattern :=
  let parts := pattern.splitOn '*'
  if parts.length = 1 then ⟨parts.headD [], [], []⟩
  else ⟨parts.headD [], parts.getLastD [], parts.tail.dropLast.filter (· ≠ [])⟩

def segmentsMatch (input : List Char) (innerEnd : Nat) : Nat → List (List Char) → Bool
  | _, [] => true
  | cursor, segment :: rest =>
    match findInfix segment ((input.take innerEnd).drop cursor) with
    | some i => segmentsMatch input innerEnd (cursor + (i + segment.length)) rest
    | none => false

def globMatches (pat : CompiledPattern) (input : List Char) : Bool :=
  if ¬ pat.prefixText <+: input then false
  else if ¬ pat.suffixText <:+ input then false
  else if input.length < pat.prefixText.length + pat.suffixText.length then false
  else segmentsMatch input (input.length - pat.suffixText.length) pat.prefixText.length
    pat.containsSegments

end

section

def startsWith (text lead : String) : Bool := decide (lead.toList <+: text.toList)

def cidrMask (bits prefixLen : Nat) : BitVec bits :=
  if prefixLen = 0 then 0 else BitVec.allOnes bits <<< (bits - prefixLen)

def cidrContains (cidr : IpCidr) (ip : IpAddr) : Bool :=
  match cidr.addr, ip with
  | .v4 net, .v4 ip => net &&& cidrMask 32 cidr.prefixLen == ip &&& cidrMask 32 cidr.prefixLen
  | .v6 net, .v6 ip => net &&& cidrMask 128 cidr.prefixLen == ip &&& cidrMask 128 cidr.prefixLen
  | _, _ => false

def actionMatches (pat : ActionPattern) (action : String) : Bool :=
  match pat with
  | .wildcard => true
  | .exact s => s == action
  | .prefixed p =>
    -- `admin:*` covers `admin:foo`, neither `admin` nor `administer`.
    decide (p.toList.length + 1 < action.toList.length) && startsWith action p &&
      action.toList[p.toList.length]? == some ':'

def qualifiedName (kind name : String) (tenant : Option String) : String :=
  if startsWith name "tenant/" then kind ++ ":" ++ name
  else
    match tenant with
    | some t => kind ++ ":tenant/" ++ t ++ "/" ++ name
    | none => kind ++ ":" ++ name

/-- The text a glob is compiled from: without a tenant of its own it is moved below the current
    one. -/
def qualifiedPattern (pkind pname : List Char) (ctx : EvalContext) : List Char :=
  if "tenant/".toList <+: pname ∨ pname = "*".toList then pkind ++ ":".toList ++ pname
  else
    let scopedName :=
      match ctx.currentTenant with
      | some t => "tenant/".toList ++ t.toList ++ "/".toList ++ pname
      | none => pname
    pkind ++ ":".toList ++ scopedName

def resourceMatches (pat : ResourcePattern) (resource : ResourceRef) (ctx : EvalContext) : Bool :=
  let target := qualifiedName resource.kind resource.name resource.tenant
  match pat with
  | .wildcard => true
  | .exact kind name =>
    if kind ≠ resource.kind then false
    else
      let qualified :=
        if startsWith name "tenant/" then kind ++ ":" ++ name
        else qualifiedName kind name ctx.currentTenant
      qualified == target
  | .glob raw =>
    match splitOnce ':' raw.toList with
    | none => false
    | some (pkind, pname) =>
      if pkind ≠ [] ∧ pkind ≠ "*".toList ∧ pkind ≠ resource.kind.toList then false
      else globMatches (compileGlob (qualifiedPattern pkind pname ctx)) target.toList

def timeWindowContains (tw : TimeWindow) (nowMs : Nat) : Bool :=
  let nowSecs : Int := (nowMs / 1000 : Nat) + tw.tzOffsetSecs
  let minute := (nowSecs % 86400 / 60).toNat
  if tw.fromMinute ≤ tw.toMinute then decide (tw.fromMinute ≤ minute ∧ minute ≤ tw.toMinute)
  else decide (tw.fromMinute ≤ minute ∨ minute ≤ tw.toMinute)

def conditionHolds (cond : Option Condition) (resource : ResourceRef) (ctx : EvalContext) : Bool :=
  match cond with
  | none => true
  | some c =>
    (c.expiresAt.all fun exp => decide (ctx.nowMs < exp)) &&
    (c.validFrom.all fun vf => decide (vf ≤ ctx.nowMs)) &&
    (c.tenantMatch.all fun wanted => !wanted || resource.tenant == ctx.currentTenant) &&
    (c.mfa.all fun wanted => !wanted || ctx.mfaPresent) &&
    (c.platformScoped.all fun want => ctx.principalIsPlatformScoped == want) &&
    (c.sourceIp.all fun cidrs => ctx.peerIp.any fun ip => cidrs.any fun cidr => cidrContains cidr ip) &&
    (c.timeWindow.all fun tw => timeWindowContains tw ctx.nowMs)

variable (statement : Statement)

def Statement.covers (ctx : EvalContext) (action : String) (resource : ResourceRef) : Bool :=
  statement.actions.any (actionMatches · action) &&
    statement.resources.any (resourceMatches · resource ctx)

/-- Grants under the older names of an action count, with the secrets of the default vault under
    their own kind. -/
def statementMatches (action : String) (resource : ResourceRef) (ctx : EvalContext) : Bool :=
  if statement.covers ctx action resource then true
  else if resource.kind ≠ "vault" then false
  else if action = "vault:reveal" then statement.covers ctx "vault:read" resource
  else if action = "vault:reveal_history" then statement.covers ctx "vault:unseal_history" resource
  else if action = "vault:use" ∨ action = "vault:write" then
    if startsWith resource.name "red.vault/" then
      let legacy : ResourceRef :=
        ⟨"secret", String.ofList (resource.name.toList.drop "red.vault/".length), resource.tenant⟩
      statement.covers ctx (if action = "vault:use" then "secret:read" else "secret:write") legacy
    else false
  else false

end

end RedDB.Auth
