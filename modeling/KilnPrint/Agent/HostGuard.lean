/-
The checks of a request before it is authenticated: the peer's address, the `Host` header and the
`Origin` header.

* `sliceTo?`, `sliceFrom?`, `splitHostPort?` — the splitter on byte offsets, which stops where a
  slice is not at a character's boundary;
* `splitHostPort?_eq` — **no slice fails**;
* `RequestGuard.check` — the checks;
* `LoopbackHost`, `isLoopbackHost_iff` — the hosts that are let through;
* `host_guarded` — **without remote connections, a request passes the checks of its address and its
  host if and only if it comes from this machine and names it**.
-/
import KilnPrint.Agent.Origin
import KilnPrint.Model.Value

namespace KilnPrint

namespace Origin

open UrlSource (lower)

/-! ### Slices -/

/-- The number of bytes of a text. -/
def byteLength (text : List Char) : ℕ := (text.map Char.utf8Size).sum

/-- `&text[..n]`; `none` where `n` is not at a character's boundary in the text. -/
def sliceTo? : ℕ → List Char → Option (List Char)
  | 0, _ => some []
  | _ + 1, [] => none
  | n + 1, c :: text =>
    if c.utf8Size ≤ n + 1 then (sliceTo? (n + 1 - c.utf8Size) text).map (c :: ·) else none

/-- `&text[n..]`; `none` where `n` is not at a character's boundary in the text. -/
def sliceFrom? : ℕ → List Char → Option (List Char)
  | 0, text => some text
  | _ + 1, [] => none
  | n + 1, c :: text => if c.utf8Size ≤ n + 1 then sliceFrom? (n + 1 - c.utf8Size) text else none

/-- `find`: the offset of the first place where a character stands. -/
def find? (c : Char) : List Char → Option ℕ
  | [] => none
  | d :: text => if d = c then some 0 else (find? c text).map (· + d.utf8Size)

/-- `cutPort`, on byte offsets; `none` where a slice fails. -/
def cutPort? (value : List Char) : Option (Option (List Char × Option (List Char))) :=
  match value with
  | '[' :: rest =>
    match find? ']' rest with
    | none => some none
    | some stop => do
      let host ← sliceTo? (stop + 2) value
      let after ← sliceFrom? (stop + 1) rest
      pure (match after with
        | [] => some (host, none)
        | ':' :: port => some (host, some port)
        | _ => none)
  | _ =>
    match cutLast value with
    | some (host, port) => some (some (host, some port))
    | none => some (some (value, none))

/-- `split_host_port`, on byte offsets; `none` where a slice fails. -/
def splitHostPort? (value : List Char) : Option (Option (List Char × Option (List Char))) :=
  (cutPort? value).map fun cut => cut.bind fun (host, port) =>
    if port.all fun p => (parsePort p).isSome then some (host, port) else none

theorem sliceTo?_append (before after : List Char) :
    sliceTo? (byteLength before) (before ++ after) = some before := by
  induction before with
  | nil => cases after <;> rfl
  | cons c before ih =>
    have hlength : byteLength (c :: before) = c.utf8Size + byteLength before := rfl
    obtain ⟨n, hn⟩ := Nat.exists_eq_succ_of_ne_zero
      (by have := c.utf8Size_pos; omega : byteLength (c :: before) ≠ 0)
    have hrest : n + 1 - c.utf8Size = byteLength before := by omega
    rw [hn, List.cons_append, sliceTo?, if_pos (by omega), hrest, ih]
    rfl

theorem sliceFrom?_append (before after : List Char) :
    sliceFrom? (byteLength before) (before ++ after) = some after := by
  induction before with
  | nil => cases after <;> rfl
  | cons c before ih =>
    have hlength : byteLength (c :: before) = c.utf8Size + byteLength before := rfl
    obtain ⟨n, hn⟩ := Nat.exists_eq_succ_of_ne_zero
      (by have := c.utf8Size_pos; omega : byteLength (c :: before) ≠ 0)
    have hrest : n + 1 - c.utf8Size = byteLength before := by omega
    rw [hn, List.cons_append, sliceFrom?, if_pos (by omega), hrest, ih]

/-- A character is found behind the text before it, or it is not there. -/
theorem find?_eq (c : Char) (text : List Char) :
    find? c text = match text.dropWhile (· != c) with
      | [] => none
      | _ :: _ => some (byteLength (text.takeWhile (· != c))) := by
  induction text with
  | nil => rfl
  | cons d text ih =>
    by_cases hd : d = c
    · rw [find?, if_pos hd, List.dropWhile_cons_of_neg (by simpa using hd),
        List.takeWhile_cons_of_neg (by simpa using hd)]
      rfl
    · rw [find?, if_neg hd, ih, List.dropWhile_cons_of_pos (by simpa using hd),
        List.takeWhile_cons_of_pos (by simpa using hd)]
      cases text.dropWhile (· != c) with
      | nil => rfl
      | cons => exact congrArg some (Nat.add_comm _ _)

/-- The offsets of the slices are those of the text before the bracket, as brackets are bytes. -/
theorem cutPort?_bracketed (rest : List Char) :
    cutPort? ('[' :: rest) = some (cutPort ('[' :: rest)) := by
  simp only [cutPort?, cutPort, find?_eq]
  cases hcut : rest.dropWhile (· != ']') with
  | nil => rfl
  | cons d after =>
    obtain ⟨-, hsplit⟩ := dropWhile_eq_cons hcut
    generalize rest.takeWhile (· != ']') = inner at hsplit ⊢
    have hopen : Char.utf8Size '[' = 1 := by decide
    have hclose : Char.utf8Size ']' = 1 := by decide
    have hhost : byteLength ('[' :: inner ++ [']']) = byteLength inner + 2 := by
      simp only [byteLength, List.map_append, List.map_cons, List.map_nil, List.sum_append,
        List.sum_cons, List.sum_nil, List.cons_append, hopen, hclose]
      omega
    have hinner : byteLength (inner ++ [']']) = byteLength inner + 1 := by
      simp only [byteLength, List.map_append, List.map_cons, List.map_nil, List.sum_append,
        List.sum_cons, List.sum_nil, hclose, Nat.add_zero]
    have hvalue : '[' :: rest = ('[' :: inner ++ [']']) ++ after := by rw [hsplit]; simp
    have hrest : rest = (inner ++ [']']) ++ after := by rw [hsplit]; simp
    dsimp only
    rw [← hhost, ← hinner, hvalue, sliceTo?_append, Option.bind_eq_bind, Option.bind_some, hrest,
      sliceFrom?_append, Option.bind_some]
    rfl

theorem cutPort?_eq (value : List Char) : cutPort? value = some (cutPort value) := by
  by_cases hhead : value.head? = some '['
  · obtain ⟨rest, rfl⟩ := List.head?_eq_some_iff.mp hhead
    exact cutPort?_bracketed rest
  · rw [cutPort_plain hhead]
    unfold cutPort?
    split
    · exact absurd rfl hhead
    · cases cutLast value <;> rfl

/-- **Every slice is at a character's boundary in the text.** -/
theorem splitHostPort?_eq (value : List Char) :
    splitHostPort? value = some (splitHostPort value) := by
  rw [splitHostPort?, cutPort?_eq]
  rfl

/-! ### Hosts of this machine -/

def loopbackNames : List (List Char) := ["localhost".toList, "127.0.0.1".toList, "[::1]".toList]

/-- `is_loopback_host`. -/
def isLoopbackHost (host : List Char) : Bool :=
  match splitHostPort (lower host) with
  | none => false
  | some (name, _) => loopbackNames.contains name

/-- A name of this machine in letters of either case, alone or with a port. -/
def LoopbackHost (host : List Char) : Prop :=
  ∃ name ∈ loopbackNames, lower host = name ∨
    ∃ port, lower host = name ++ ':' :: port ∧ (parsePort port).isSome

/-- The names are cut off from their ports. -/
theorem cutPort_loopback {name : List Char} (h : name ∈ loopbackNames) (port : Option (List Char))
    (hport : port.all (fun p => (parsePort p).isSome) = true) :
    cutPort (withPort name port) = some (name, port) := by
  have hplain : ∀ name : List Char, name.head? ≠ some '[' → name ≠ [] → ':' ∉ name →
      cutPort (withPort name port) = some (name, port) := by
    intro name hhead hne hcolon
    have hhead' : (withPort name port).head? ≠ some '[' := by
      rwa [withPort, List.head?_append_of_ne_nil _ hne]
    rw [cutPort_plain hhead']
    cases port with
    | none =>
      rw [withPort, Option.elim_none, List.append_nil, cutLast_of_not_mem hcolon]
    | some port => rw [withPort, Option.elim_some, cutLast_append (not_colon_of_parsePort hport)]
  have hcases : name = "localhost".toList ∨ name = "127.0.0.1".toList ∨ name = "[::1]".toList := by
    simpa [loopbackNames] using h
  rcases hcases with rfl | rfl | rfl
  · exact hplain _ (by decide) (by decide) (by decide)
  · exact hplain _ (by decide) (by decide) (by decide)
  · have hinner : ']' ∉ "::1".toList := by decide
    exact cutPort_bracketed hinner port

/-- **The hosts that are let through are the names of this machine.** -/
theorem isLoopbackHost_iff (host : List Char) : isLoopbackHost host = true ↔ LoopbackHost host := by
  constructor
  · intro h
    unfold isLoopbackHost at h
    split at h
    · cases h
    · next name port hsplit =>
      obtain ⟨⟨cutHost, cutPort⟩, hcut, hchecked⟩ := Option.bind_eq_some_iff.mp hsplit
      dsimp only at hchecked
      split at hchecked
      · next hport =>
        obtain ⟨rfl, rfl⟩ := Prod.mk.inj (Option.some.inj hchecked)
        obtain ⟨hvalue, -⟩ := cutPort_cases hcut
        refine ⟨_, List.contains_iff_mem.mp h, ?_⟩
        rw [hvalue]
        cases cutPort with
        | none => exact .inl (List.append_nil _)
        | some port => exact .inr ⟨port, rfl, hport⟩
      · cases hchecked
  · rintro ⟨name, hname, hhost⟩
    have hsplit : ∃ port, splitHostPort (lower host) = some (name, port) := by
      rcases hhost with hhost | ⟨port, hhost, hport⟩
      · have hcut := cutPort_loopback hname none rfl
        rw [withPort, Option.elim_none, List.append_nil, ← hhost] at hcut
        exact ⟨none, hhost ▸ splitHostPort_of_cut hcut rfl⟩
      · have hcut := cutPort_loopback hname (some port) hport
        rw [withPort, Option.elim_some, ← hhost] at hcut
        exact ⟨some port, splitHostPort_of_cut hcut hport⟩
    obtain ⟨port, hsplit⟩ := hsplit
    rw [isLoopbackHost, hsplit]
    exact List.contains_iff_mem.mpr hname

end Origin

/-! ### Requests -/

inductive IpAddr
  | v4 (a b c d : UInt8)
  | v6 (bits : BitVec 128)
  deriving DecidableEq

/-- `is_loopback`: 127.0.0.0/8, or ::1. -/
def IpAddr.isLoopback : IpAddr → Bool
  | v4 a _ _ _ => a == 127
  | v6 bits => bits == 1

structure SocketAddr where
  ip : IpAddr
  port : UInt16
  deriving DecidableEq

/-- The first header of each name that the guard reads. -/
structure Headers where
  host : Option Bytes
  origin : Option Bytes
  userAgent : Option Bytes
  deriving DecidableEq

/-- `HeaderValue::to_str`: the text of a value of visible ASCII characters, blanks and tabs. -/
def headerText (value : Bytes) : Option (List Char) :=
  if value.all fun b => b == 0x09 || (0x20 ≤ b && b < 0x7F) then
    some (value.map fun b => Char.ofNat b.toNat)
  else none

/-- Facts about the transport connection. -/
structure ConnectionInfo where
  peer : SocketAddr
  /-- The normal form of the `Origin` header; `none` for native clients. -/
  origin : Option (List Char)
  userAgent : Option (List Char)
  deriving DecidableEq

/-- A status, with its reason. -/
abbrev Rejection := ℕ × String

structure RequestGuard where
  allowNonLoopback : Bool

namespace RequestGuard

variable (guard : RequestGuard) (peer : SocketAddr) (headers : Headers)

/-- The checks of the address and the host. -/
def checkHost : Except Rejection Unit :=
  if guard.allowNonLoopback then pure ()
  else if ¬ peer.ip.isLoopback then throw (403, "remote connections are disabled")
  else if ¬ Origin.isLoopbackHost ((headers.host.bind headerText).getD []) then
    throw (403, "invalid Host header")
  else pure ()

/-- The check of the origin. -/
def checkOrigin : Except Rejection (Option (List Char)) :=
  match headers.origin with
  | none => pure none
  | some value =>
    match headerText value with
    | none => throw (403, "invalid Origin header")
    | some raw =>
      match Origin.normaliseOrigin raw with
      | none => throw (403, "origin not allowed")
      | some origin => pure (some origin)

def check : Except Rejection ConnectionInfo := do
  guard.checkHost peer headers
  let origin ← checkOrigin headers
  pure ⟨peer, origin, (headers.userAgent.bind headerText).map (·.take 200)⟩

end RequestGuard

/-- **The host is guarded.**  Without remote connections, the checks of the address and the host
pass exactly for a peer on this machine and a header that names it; and no header makes the
splitter slice a text elsewhere than at a character's boundary. -/
theorem host_guarded (peer : SocketAddr) (headers : Headers) :
    (RequestGuard.checkHost ⟨false⟩ peer headers = .ok () ↔ peer.ip.isLoopback = true ∧
      ∃ host, headers.host.bind headerText = some host ∧ Origin.LoopbackHost host) ∧
    ∀ value, Origin.splitHostPort? value = some (Origin.splitHostPort value) := by
  refine ⟨?_, Origin.splitHostPort?_eq⟩
  have hempty : Origin.isLoopbackHost [] = false := by decide +kernel
  unfold RequestGuard.checkHost
  rw [if_neg Bool.false_ne_true]
  cases hpeer : peer.ip.isLoopback with
  | false => simp [throw, throwThe, MonadExceptOf.throw]
  | true =>
    cases hhost : headers.host.bind headerText with
    | none => simp [hempty, throw, throwThe, MonadExceptOf.throw]
    | some host =>
      simp only [Option.getD_some, Option.some.injEq, exists_eq_left', ← Origin.isLoopbackHost_iff,
        true_and, not_true_eq_false, if_false]
      by_cases hloopback : Origin.isLoopbackHost host = true
      · rw [if_neg (not_not_intro hloopback)]
        exact iff_of_true rfl hloopback
      · rw [if_pos hloopback]
        exact iff_of_false (fun h => nomatch h) hloopback

end KilnPrint
