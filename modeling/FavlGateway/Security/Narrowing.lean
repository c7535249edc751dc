/-
  What a connector asks for (`build_policy`, `app/security/policy.py`).

  The policy should be the meet of two: the operator's bounds and the connector's request.  On hosts,
  redirects and bytes it is.  Schemes and content types are intersected too, but an EMPTY intersection
  falls back to everything the operator allows: a connector whose request has nothing in common with
  the operator's list is served with exactly what it did not ask for.  `build_policy_narrows` says
  that this is the only way in which a request is not honoured.
-/
import FavlGateway.Security.Policy

namespace FavlGateway.Security

open FavlGateway.Library

/-- The items a connector lists under a key, if it lists any. -/
def Lists (config : Dict PyStr) (key : PyStr) (items : List (Json PyStr)) : Prop :=
  configItem config key = some (.arr items) ∧ items ≠ []

/-- A count a connector asks for under a key. -/
def AsksFor (config : Dict PyStr) (key : PyStr) (n : Nat) : Prop :=
  configItem config key = some (.number (.int n))

/-- The policy stays within the connector's own request. -/
structure Honours (config : Dict PyStr) (policy : OutboundPolicy) : Prop where
  schemes : ∀ items, Lists config "requested_schemes" items →
    ∀ s ∈ policy.allowedSchemes, .str s ∈ items
  contentTypes : ∀ items, Lists config "allowed_content_types" items →
    ∀ t ∈ policy.allowedContentTypes, .str t ∈ items
  hosts : ∃ items, requestedItems config "allowed_hosts" = .ok items ∧
    ∀ host ∈ policy.allowedHosts, host ∈ items
  redirects : ∀ n, AsksFor config "max_redirects" n → policy.maxRedirects ≤ n
  responseBytes : ∀ n, AsksFor config "max_response_bytes" n → policy.maxResponseBytes ≤ n
  httpsOnly : ∀ items, Lists config "requested_schemes" items →
    (∀ item ∈ items, item = .str "https") → ("http" : PyStr) ∉ policy.allowedSchemes

/-- What the connector lists under a key, if it lists any, has something in common with `allowed`. -/
def Overlaps (config : Dict PyStr) (key : PyStr) (allowed : List PyStr) : Prop :=
  ∀ items, Lists config key items → ∃ s ∈ allowed, .str s ∈ items

/-! ## The fallback -/

section Fallback

variable {config : Dict PyStr} {key : PyStr} {allowed : List PyStr}
  {items requested : List (Json PyStr)}

theorem mem_requestedAmong {s : PyStr} :
    s ∈ requestedAmong allowed items ↔ s ∈ allowed ∧ .str s ∈ items := by
  unfold requestedAmong
  rw [List.mem_filterMap]
  constructor
  · rintro ⟨item, hmem, hitem⟩
    cases item with
    | str t =>
      dsimp only at hitem
      split at hitem
      · rename_i hallowed
        rw [← Option.some.inj hitem]
        exact ⟨hallowed, hmem⟩
      · cases hitem
    | _ => cases hitem
  · rintro ⟨hallowed, hmem⟩
    exact ⟨.str s, hmem, by simp [hallowed]⟩

/-- A list is read as its items. -/
theorem Lists.requestedItems_eq (h : Lists config key items) : requestedItems config key = .ok items := by
  obtain ⟨hitem, hne⟩ := h
  have htruthy : (Json.arr items).truthy PyStr.isEmpty = true := by
    cases items with
    | nil => exact absurd rfl hne
    | cons x xs => rfl
  unfold requestedItems
  rw [hitem]
  simp only [htruthy, if_true, members]

/-- **The fallback undoes the request exactly where nothing of it is allowed.** -/
theorem narrows_iff_overlaps (hallowed : allowed ≠ [])
    (hrequested : requestedItems config key = .ok requested) :
    (∀ items, Lists config key items →
      ∀ s ∈ Deployment.orDefault (requestedAmong allowed requested) allowed, .str s ∈ items) ↔
      Overlaps config key allowed := by
  refine forall_congr' fun items => forall_congr' fun hlists => ?_
  rw [hlists.requestedItems_eq, Except.ok.injEq] at hrequested
  subst hrequested
  constructor
  · intro hsubset
    by_contra hnone
    -- the fallback: every allowed value, and none of them was asked for
    have hempty : requestedAmong allowed items = [] := by
      refine List.eq_nil_iff_forall_not_mem.mpr fun s hs => hnone ?_
      exact ⟨s, mem_requestedAmong.mp hs⟩
    obtain ⟨s, hs⟩ := List.exists_mem_of_ne_nil allowed hallowed
    refine hnone ⟨s, hs, hsubset s ?_⟩
    rw [hempty]
    exact hs
  · rintro ⟨s₀, hs₀, hmem₀⟩ s hs
    have hkept : requestedAmong allowed items ≠ [] := by
      intro hempty
      have hmem := mem_requestedAmong.mpr ⟨hs₀, hmem₀⟩
      rw [hempty] at hmem
      cases hmem
    rw [Deployment.orDefault, if_neg (by simpa using hkept)] at hs
    exact (mem_requestedAmong.mp hs).2

end Fallback

/-! ## The policy as a meet -/

section Meet

variable {D : Deployment} {config : Dict PyStr}

theorem operatorAllowedSchemes_ne_nil : D.operatorAllowedSchemes ≠ [] := by
  unfold Deployment.operatorAllowedSchemes Deployment.orDefault
  split
  · decide
  · rename_i h
    simpa using h

theorem allowedContentTypesCeiling_ne_nil : D.allowedContentTypesCeiling ≠ [] := by
  unfold Deployment.allowedContentTypesCeiling Deployment.orDefault
  split
  · decide
  · rename_i h
    simpa using h

/-- A host that is kept was requested. -/
theorem permittedHosts_subset {U : Unicode} {operatorHosts : List PyStr}
    {requested hosts : List (Json PyStr)}
    (h : permittedHosts U operatorHosts requested = .ok hosts) : hosts ⊆ requested := by
  induction requested generalizing hosts with
  | nil =>
    cases h
    exact List.Subset.refl _
  | cons item rest ih =>
    cases item with
    | str first =>
      unfold permittedHosts at h
      cases hrest : permittedHosts U operatorHosts rest with
      | error e =>
        rw [hrest] at h
        cases h
      | ok kept =>
        rw [hrest] at h
        dsimp only at h
        split at h
        · cases h
          exact List.cons_subset_cons _ (ih hrest)
        · cases h
          exact List.Subset.trans (ih hrest) (List.subset_cons_self _ _)
    | _ => cases h

theorem boundHosts_subset {U : Unicode} {operatorHosts : List PyStr}
    {requested hosts : List (Json PyStr)} (h : boundHosts U operatorHosts requested = .ok hosts) :
    hosts ⊆ requested := by
  unfold boundHosts at h
  split at h
  · cases h
    exact List.Subset.refl _
  · exact permittedHosts_subset h

/-- A count that is asked for bounds the smaller of it and a ceiling. -/
theorem min_le_of_asksFor {U : Unicode} {key : PyStr} {n : Nat} (h : AsksFor config key n)
    (default ceiling : Int) :
    min ((positiveInt U (configItem config key)).getD default) ceiling ≤ n := by
  have hparsed : positiveInt U (configItem config key) = some n := by
    rw [h]
    simp [positiveInt, parseInt]
  rw [hparsed]
  exact Int.min_le_left _ _

/-- **A connector's request to narrow its policy is honoured**, on every configuration and in every
    deployment, exactly where what it lists has something in common with what the operator allows:
    schemes with the allowed schemes, content types with the allowed content types. -/
theorem build_policy_narrows (D : Deployment) (config : Dict PyStr) (maxRedirects : Int)
    {policy : OutboundPolicy} (h : buildPolicy D config maxRedirects = .ok policy) :
    Honours config policy ↔
      Overlaps config "requested_schemes" D.operatorAllowedSchemes ∧
        Overlaps config "allowed_content_types" D.allowedContentTypesCeiling := by
  obtain ⟨requestedHosts, requestedSchemes, requestedTypes, bytesCeiling, redirectCeiling, hasked,
    hhosts, hschemesAsked, hschemes, -, -, hbytes, -, hredirects, htypesAsked, htypes⟩ :=
    buildPolicy_ok h
  rw [← narrows_iff_overlaps operatorAllowedSchemes_ne_nil hschemesAsked, ← hschemes,
    ← narrows_iff_overlaps allowedContentTypesCeiling_ne_nil htypesAsked, ← htypes]
  constructor
  · intro hhonours
    exact ⟨hhonours.schemes, hhonours.contentTypes⟩
  · rintro ⟨hwithinSchemes, hwithinTypes⟩
    constructor
    · exact hwithinSchemes
    · exact hwithinTypes
    · exact ⟨requestedHosts, connectorHosts_items hasked, boundHosts_subset hhosts⟩
    · intro n hn
      rw [hredirects]
      exact min_le_of_asksFor hn _ _
    · intro n hn
      rw [hbytes]
      exact min_le_of_asksFor hn _ _
    · intro items hlists honly hhttp
      have hitem := honly _ (hwithinSchemes items hlists _ hhttp)
      exact absurd hitem (by decide)

end Meet

/-- The connector of the boundary deployment, with a request it can meet. -/
def modestConfig : Dict PyStr :=
  [("requested_schemes", .arr [.str "https"]), ("max_redirects", .number (.int 1))]

def modestPolicy : OutboundPolicy where
  allowedHosts := []
  maxRedirects := 1

theorem build_policy_narrows_modest : Honours modestConfig modestPolicy := by
  refine (build_policy_narrows boundary modestConfig 3 (by decide +kernel)).mpr ⟨?_, ?_⟩
  · rintro items ⟨hitems, -⟩
    have hlist : configItem modestConfig "requested_schemes" = some (.arr [.str "https"]) := by
      decide +kernel
    rw [hlist, Option.some.injEq, Json.arr.injEq] at hitems
    subst hitems
    exact ⟨"https", by decide +kernel, by simp⟩
  · rintro items ⟨hitems, -⟩
    have hnone : configItem modestConfig "allowed_content_types" = none := by decide +kernel
    rw [hnone] at hitems
    cases hitems

/-- A deployment whose operator allows plain HTTP only. -/
def plainEnv : String → Option PyStr
  | "OUTBOUND_ALLOWED_SCHEMES" => some "http"
  | _ => none

def plain : Deployment := ⟨Unicode.ascii, plainEnv⟩

def httpsOnlyConfig : Dict PyStr := [("requested_schemes", .arr [.str "https"])]

/-- A connector that asks for HTTPS only is served over HTTP. -/
theorem https_only_served_over_http :
    buildPolicy plain httpsOnlyConfig =
        .ok { allowedHosts := [], allowedSchemes := ["http"], maxRedirects := 3 } ∧
      ¬ Honours httpsOnlyConfig
        { allowedHosts := [], allowedSchemes := ["http"], maxRedirects := 3 } := by
  refine ⟨by decide +kernel, fun h => ?_⟩
  refine h.httpsOnly [.str "https"] ⟨by decide +kernel, by simp⟩ ?_ (by simp)
  intro item hitem
  exact List.mem_singleton.mp hitem

end FavlGateway.Security
