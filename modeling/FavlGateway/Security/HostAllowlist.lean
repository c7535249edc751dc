/-
  Which hosts an allowlist lets through (`OutboundPolicy.host_allowed`).

  An entry `.d` is to mean the domain `d` and everything below it (`Names`).  The code tests
  `host.endswith(".d")`, which every host below `d` passes and `d` itself does not: the apex is let
  through only if some other entry names it.
-/
import FavlGateway.Security.Policy

namespace FavlGateway.Security

open FavlGateway.Library

/-! ## What an entry means -/

section Entries

variable (U : Unicode) (raw host : PyStr)

/-- The host is the entry, up to case and trailing full stops. -/
def Exactly : Prop := canonical U host = canonical U raw

/-- The entry names a domain, and the host is below it. -/
def Below : Prop :=
  ∃ d front, (canonical U raw).codepoints = fullStop :: d ∧
    (canonical U host).codepoints = front ++ fullStop :: d

/-- The entry names a domain, and the host is that domain. -/
def Apex : Prop :=
  ∃ d, (canonical U raw).codepoints = fullStop :: d ∧ (canonical U host).codepoints = d

/-- **What an entry names**: itself, or a domain and what is below it. -/
def Names : Prop := Exactly U raw host ∨ Apex U raw host ∨ Below U raw host

end Entries

variable {U : Unicode} {raw host : PyStr} {entries : List PyStr} {policy : OutboundPolicy}

/-- The test of the loop: the apex is left out. -/
theorem accepts_iff_exactly_or_below :
    accepts U raw host = true ↔ Exactly U raw host ∨ Below U raw host := by
  unfold Exactly Below
  rw [accepts_iff, PyStr.startsWithStop_iff, PyStr.endsWith_iff]
  refine or_congr_right ?_
  constructor
  · rintro ⟨⟨d, hd⟩, front, hfront⟩
    exact ⟨d, front, hd, by rw [hfront, hd]⟩
  · rintro ⟨d, front, hd, hfront⟩
    exact ⟨⟨d, hd⟩, front, by rw [hfront, hd]⟩

theorem hostAllowed_iff (hentries : policy.allowedHosts = entries.map .str) :
    policy.hostAllowed U host = .ok true ↔
      ∃ raw ∈ entries, Exactly U raw host ∨ Below U raw host := by
  unfold OutboundPolicy.hostAllowed
  rw [hentries, anyAccepts_texts, Except.ok.injEq, List.any_eq_true]
  refine exists_congr fun raw => and_congr_right fun _ => accepts_iff_exactly_or_below

/-- **When an allowlist means what its entries name**: unless the host is a listed domain itself and
    no entry is the host or names a domain above it. -/
theorem host_allowed_iff (hentries : policy.allowedHosts = entries.map .str) :
    (policy.hostAllowed U host = .ok true ↔ ∃ raw ∈ entries, Names U raw host) ↔
      ((∃ raw ∈ entries, Apex U raw host) →
        ∃ raw ∈ entries, Exactly U raw host ∨ Below U raw host) := by
  rw [hostAllowed_iff hentries]
  constructor
  · rintro h ⟨raw, hraw, hapex⟩
    exact h.mpr ⟨raw, hraw, Or.inr (Or.inl hapex)⟩
  · intro h
    constructor
    · rintro ⟨raw, hraw, hexactly | hbelow⟩
      · exact ⟨raw, hraw, Or.inl hexactly⟩
      · exact ⟨raw, hraw, Or.inr (Or.inr hbelow)⟩
    · rintro ⟨raw, hraw, hexactly | hapex | hbelow⟩
      · exact ⟨raw, hraw, Or.inl hexactly⟩
      · exact h ⟨raw, hraw, hapex⟩
      · exact ⟨raw, hraw, Or.inr hbelow⟩

/-- An allowlist with one domain. -/
def trustedHosts : OutboundPolicy := { allowedHosts := [.str ".trusted.test"] }

theorem host_allowed_iff_subdomain :
    trustedHosts.hostAllowed Unicode.ascii "a.trusted.test" = .ok true ↔
      ∃ raw ∈ ([".trusted.test"] : List PyStr), Names Unicode.ascii raw "a.trusted.test" := by
  have hentries : trustedHosts.allowedHosts = ([".trusted.test"] : List PyStr).map .str := rfl
  refine (host_allowed_iff hentries).mpr fun _ => ?_
  exact (hostAllowed_iff hentries).mp (by decide +kernel)

/-- The listed domain itself is refused. -/
theorem apex_refused :
    trustedHosts.hostAllowed Unicode.ascii "trusted.test" = .ok false ∧
      Names Unicode.ascii ".trusted.test" "trusted.test" := by
  refine ⟨by decide +kernel, Or.inr (Or.inl ⟨(PyStr.ofString "trusted.test").codepoints, ?_, ?_⟩)⟩
  · decide +kernel
  · decide +kernel

end FavlGateway.Security
