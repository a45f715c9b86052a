import Mathlib.Data.Set.Basic
import OxmlMcp.Access.Policy

/-!
# What a bind host opens

The requests a server accepts, as sets. The loopback server accepts the least, and a server bound to
another interface accepts beyond that only requests that name it: two servers of different names have
no more in common than the loopback server accepts.

* `Accepted`: the requests that pass the guard.
* `accepted_meet`: what two servers both accept.
-/

namespace OxmlMcp.Access
open OxmlMcp.Text OxmlMcp.Http

variable {http : Parsers} {a b : String}

/-- The requests that pass the guard of a server bound to `bindHost`. -/
def Accepted (http : Parsers) (bindHost : String) : Set HeaderMap :=
  { headers | (Guard.forBindHost bindHost).check http headers = .ok () }

/-- The address that a server binds unless told otherwise. -/
def loopback : String := "127.0.0.1"

/-- The loopback server has the loopback names and no other. -/
lemma serverName_loopback {name : String} : ServerName loopback name ↔ name ∈ loopbackHosts := by
  constructor
  · rintro (known | ⟨-, rfl⟩)
    · exact known
    · decide
  · exact .inl

/-- A name of two servers is a loopback name or the bound name of both. -/
lemma ServerName.meet {name : String} (na : ServerName a name) (nb : ServerName b name)
    (ne : ¬ Wildcard a → ¬ Wildcard b → normalize a ≠ normalize b) : ServerName loopback name := by
  rw [serverName_loopback]
  rcases na with known | ⟨specific, rfl⟩
  · exact known
  · rcases nb with known | ⟨specific', e⟩
    · exact known
    · exact absurd e (ne specific specific')

lemma ServerName.of_loopback {name : String} (h : ServerName loopback name) : ServerName a name :=
  .inl (serverName_loopback.1 h)

/-- What names one server names another, when its names are names of the other. -/
lemma LocalHost.mono (sub : ∀ name, ServerName a name → ServerName b name) {v : HeaderValue}
    (h : LocalHost http a v) : LocalHost http b v := by
  obtain ⟨text, host, e, parse, name⟩ := h
  exact ⟨text, host, e, parse, sub _ name⟩

lemma LocalOrigin.mono (sub : ∀ name, ServerName a name → ServerName b name) {v : HeaderValue}
    (h : LocalOrigin http a v) : LocalOrigin http b v := by
  obtain ⟨text, uri, scheme, host, e, parse, es, eh, name⟩ := h
  exact ⟨text, uri, scheme, host, e, parse, es, eh, sub _ name⟩

/-- A `Host` value names what its text says. -/
lemma LocalHost.meet {v : HeaderValue} (ha : LocalHost http a v) (hb : LocalHost http b v)
    (ne : ¬ Wildcard a → ¬ Wildcard b → normalize a ≠ normalize b) : LocalHost http loopback v := by
  rw [localHost_iff] at ha hb ⊢
  obtain ⟨n, e, na⟩ := ha
  obtain ⟨m, e', nb⟩ := hb
  cases e.symm.trans e'
  exact ⟨n, e, na.meet nb ne⟩

lemma LocalOrigin.meet {v : HeaderValue} (ha : LocalOrigin http a v) (hb : LocalOrigin http b v)
    (ne : ¬ Wildcard a → ¬ Wildcard b → normalize a ≠ normalize b) :
    LocalOrigin http loopback v := by
  rw [localOrigin_iff] at ha hb ⊢
  obtain ⟨n, e, na⟩ := ha
  obtain ⟨m, e', nb⟩ := hb
  cases e.symm.trans e'
  exact ⟨n, e, na.meet nb ne⟩

lemma mem_accepted {headers : HeaderMap} :
    headers ∈ Accepted http a ↔
      (¬ Wildcard a → ∃ v, headers.get HOST = some v ∧ LocalHost http a v) ∧
      ∀ v, headers.get ORIGIN = some v → LocalOrigin http a v :=
  check_ok_iff

/-- A server with more names accepts more, unless the other checks no `Host`. -/
lemma accepted_mono (sub : ∀ name, ServerName a name → ServerName b name)
    (specific : ¬ Wildcard b → ¬ Wildcard a) : Accepted http a ⊆ Accepted http b := by
  intro headers ok
  rw [mem_accepted] at ok ⊢
  obtain ⟨host, origin⟩ := ok
  refine ⟨fun sb => ?_, fun v get => (origin v get).mono sub⟩
  obtain ⟨v, get, loc⟩ := host (specific sb)
  exact ⟨v, get, loc.mono sub⟩

lemma not_wildcard_loopback : ¬ Wildcard loopback := by
  decide

/-- Every server accepts what the loopback server does. -/
lemma loopback_subset : Accepted http loopback ⊆ Accepted http a :=
  accepted_mono (fun _ => .of_loopback) fun _ => not_wildcard_loopback

/-- Servers bound to one name accept the same. -/
lemma accepted_congr (sa : ¬ Wildcard a) (sb : ¬ Wildcard b) (e : normalize a = normalize b) :
    Accepted http a = Accepted http b := by
  have same : ∀ name, ServerName a name ↔ ServerName b name := by
    intro name
    rw [ServerName, ServerName, e]
    exact or_congr_right (and_congr_left fun _ => iff_of_true sa sb)
  exact (accepted_mono (fun name => (same name).1) fun _ => sa).antisymm
    (accepted_mono (fun name => (same name).2) fun _ => sb)

/-- The requests of a local page: any `Origin` names the loopback interface. -/
def LocalPage (http : Parsers) : Set HeaderMap :=
  { headers | ∀ v, headers.get ORIGIN = some v → LocalOrigin http loopback v }

/-- A server that binds every interface accepts what comes from no foreign page. -/
lemma accepted_wildcard (w : Wildcard a) : Accepted http a = LocalPage http := by
  have same : ∀ name, ServerName a name ↔ ServerName loopback name := by
    intro name
    rw [serverName_loopback, ServerName]
    exact or_iff_left fun specific => specific.1 w
  ext headers
  rw [mem_accepted]
  constructor
  · rintro ⟨-, origin⟩ v get
    exact (origin v get).mono fun name => (same name).1
  · intro origin
    refine ⟨fun specific => absurd w specific, fun v get => ?_⟩
    exact (origin v get).mono fun name => (same name).2

/-- Two servers bound to specific interfaces accept in common what one of them does, if they have one
name, and else what the loopback server does; a server that binds every interface has in common with
another what that one accepts from no foreign page; and the loopback server accepts the least. -/
theorem accepted_meet (http : Parsers) (a b : String) :
    Accepted http loopback ⊆ Accepted http a ∧
    Accepted http a ∩ Accepted http b =
      if Wildcard a then Accepted http b ∩ LocalPage http
      else if Wildcard b then Accepted http a ∩ LocalPage http
      else if normalize a = normalize b then Accepted http a
      else Accepted http loopback := by
  refine ⟨loopback_subset, ?_⟩
  split
  · rw [accepted_wildcard ‹Wildcard a›, Set.inter_comm]
  · split
    · rw [accepted_wildcard ‹Wildcard b›]
    · split
      · rw [accepted_congr ‹¬ Wildcard b› ‹¬ Wildcard a› (Eq.symm ‹_›), Set.inter_self]
      · refine Set.Subset.antisymm ?_ (Set.subset_inter loopback_subset loopback_subset)
        rintro headers ⟨ha, hb⟩
        have ne : ¬ Wildcard a → ¬ Wildcard b → normalize a ≠ normalize b := fun _ _ => ‹_›
        rw [mem_accepted] at ha hb ⊢
        refine ⟨fun _ => ?_, fun v get => (ha.2 v get).meet (hb.2 v get) ne⟩
        obtain ⟨v, get, la⟩ := ha.1 ‹_›
        obtain ⟨v', get', lb⟩ := hb.1 ‹_›
        cases get.symm.trans get'
        exact ⟨v, get, la.meet lb ne⟩

end OxmlMcp.Access
