import Courier.Proofs.Veil
/-!
Keys in the query.  Signing with such a key takes the place of whatever the parameter was before, in
whichever spelling and however often, and touches nothing else.  So a key that is put in later takes
the place of one that was put in before, and the same key once more changes nothing.
-/
namespace Courier

namespace Credentials

/-- What has no pair of the parameter, and then one, has only that one of it. -/
theorem filter_kept_eq (parameter key : String) (pairs : Url.Pairs) :
    ((pairs.filter fun pair => pair.1 != parameter) ++ [(parameter, key)]).filter
        (fun pair => pair.1 == parameter) = [(parameter, key)] := by
  have hnone : (pairs.filter fun pair => pair.1 != parameter).filter
      (fun pair => pair.1 == parameter) = [] := by
    rw [List.filter_filter, List.filter_eq_nil_iff]
    intro pair _
    simp
  simp [hnone]

theorem filter_kept_ne (parameter key : String) (pairs : Url.Pairs) :
    ((pairs.filter fun pair => pair.1 != parameter) ++ [(parameter, key)]).filter
        (fun pair => pair.1 != parameter) = pairs.filter fun pair => pair.1 != parameter := by
  simp [List.filter_filter]

/-- Of two keys the later one stays. -/
theorem setParameter_setParameter (url : Url) (parameter key key' : String) :
    setParameter (setParameter url parameter key) parameter key' =
      setParameter url parameter key' := by
  have hkept := filter_kept_ne parameter key url.pairs
  rw [← pairs_setParameter] at hkept
  unfold setParameter at hkept ⊢
  dsimp only at hkept ⊢
  rw [hkept]

/-- Every request can be signed with a key in the query.  The signed request has the pairs that it had
of other names, in their order, and then the parameter with the key, which is the only pair of that
name.  Nothing but the query differs, and signing once more gives the same request. -/
theorem sign_apiKeyQuery_replaces (parameter key : String) (request : WireRequest) :
    ∃ signed, (apiKeyQuery parameter key).sign request = .ok signed ∧
      signed.url.pairs =
        (request.url.pairs.filter fun pair => pair.1 != parameter) ++ [(parameter, key)] ∧
      (signed.url.pairs.filter fun pair => pair.1 == parameter) = [(parameter, key)] ∧
      signed = { request with url := { request.url with query := signed.url.query } } ∧
      (apiKeyQuery parameter key).sign signed = .ok signed := by
  have hpairs := pairs_setParameter request.url parameter key
  refine ⟨_, rfl, hpairs, ?_, rfl, ?_⟩
  · dsimp only
    rw [hpairs, filter_kept_eq]
  · have hagain := setParameter_setParameter request.url parameter key key
    dsimp only [sign]
    rw [hagain]

end Credentials

end Courier
