import MsaTuto.AuthHttp
import MsaTuto.Gateway

/-! The token behind a proxied request: what the backend's `JwtStrategy` extracts from the
header that `proxyRequest` sends. -/
namespace MsaTuto
open Js ProxyService

def authorization (headers : Fields) : Option String :=
  match headers.lookup "authorization" with
  | some (.str value) => some value
  | _ => none

/-- `ExtractJwt.fromAuthHeaderAsBearerToken` on a request the gateway sends. -/
def Outcome.bearerToken : Outcome → Option String
  | .proxied call => MsaTuto.bearerToken (authorization call.headers)
  | _ => none

/-- The header's first two words are one and the same, as in `bearer bearer`. -/
def SchemeIsToken (header : String) : Prop :=
  ∃ word rest, words header.toList = word :: word :: rest

section Header
variable {header token : String}

def isBearer (scheme : List Char) : Prop :=
  scheme.map Char.toLower = ['b', 'e', 'a', 'r', 'e', 'r']

theorem bearerToken_eq_some : bearerToken (some header) = some token ↔
    ∃ scheme rest, words header.toList = scheme :: token.toList :: rest ∧ isBearer scheme := by
  cases hwords : words header.toList with
  | nil => simp [bearerToken, hwords]
  | cons scheme rest =>
    cases rest with
    | nil => simp [bearerToken, hwords]
    | cons value rest =>
      have htoken : String.ofList value = token ↔ value = token.toList := by
        rw [← String.toList_inj, String.toList_ofList]
      by_cases hscheme : scheme.map Char.toLower = ['b', 'e', 'a', 'r', 'e', 'r']
      · simp [bearerToken, hwords, isBearer, hscheme, htoken]
      · simp [bearerToken, hwords, isBearer, hscheme]

/-- Behind the scheme that the proxy puts in front, the old scheme is what reads as the token. -/
theorem words_withBearer (header : String) :
    words ("Bearer " ++ header).toList = "Bearer".toList :: words header.toList := by
  have hsplit : ("Bearer " ++ header).toList = "Bearer".toList ++ ' ' :: header.toList := by
    simp
  have hclean : ∀ c ∈ "Bearer".toList, isWhite c = false := by
    have hall : "Bearer".toList.all (!isWhite ·) = true := by decide
    intro c hc
    simpa using List.all_eq_true.mp hall c hc
  rw [hsplit, words_append_white (by decide), words_of_noWhite hclean (by simp)]
  rfl

theorem bearerToken_withBearer {scheme : List Char} {rest : List (List Char)}
    (hwords : words header.toList = scheme :: rest) :
    bearerToken (some ("Bearer " ++ header)) = some (String.ofList scheme) := by
  refine bearerToken_eq_some.mpr ⟨"Bearer".toList, rest, ?_, by simp only [isBearer]; decide⟩
  rw [words_withBearer, hwords]
  simp

end Header

section Proxy
variable {req : HttpRequest} {header : String}

theorem authorization_relevant (req : HttpRequest) :
    (extractRelevantHeaders req).lookup "authorization" = req.headers.lookup "authorization" :=
  lookup_spread_of_notMem (by simp) _

theorem authorization_eq_some (h : authorization req.headers = some header) :
    req.headers.lookup "authorization" = some (.str header) := by
  simp only [authorization] at h
  split at h
  next value hlookup =>
    cases h
    exact hlookup
  next => cases h

/-- What the proxy makes of a header that is there. -/
theorem proxied_authorization (h : authorization req.headers = some header) (hne : header ≠ "") :
    authorization (withBearer (extractRelevantHeaders req)) =
      some (if startsWith header "Bearer " then header else "Bearer " ++ header) := by
  have hlookup := (authorization_relevant req).trans (authorization_eq_some h)
  cases hstarts : startsWith header "Bearer " with
  | true => simp [withBearer, hlookup, hstarts, authorization]
  | false => simp [withBearer, hlookup, hstarts, hne, authorization]

/-- A backend extracts the token that the gateway has extracted exactly if the header starts with
`Bearer ` to the letter, or its scheme and its token are the same word. -/
theorem forwarded_token_iff (req : HttpRequest) (base : String) {header token : String}
    (hheader : authorization req.headers = some header)
    (htoken : bearerToken (some header) = some token) :
    (proxyRequest req (some base)).bearerToken = some token ↔
      startsWith header "Bearer " = true ∨ SchemeIsToken header := by
  obtain ⟨scheme, rest, hwords, hscheme⟩ := bearerToken_eq_some.mp htoken
  have hne : header ≠ "" := by
    rintro rfl
    cases hwords
  simp only [proxyRequest, Outcome.bearerToken, proxied_authorization hheader hne]
  cases hstarts : startsWith header "Bearer " with
  | true => simp [htoken]
  | false =>
    simp only [Bool.false_eq_true, if_false, false_or, bearerToken_withBearer hwords,
      Option.some.injEq]
    constructor
    · intro hsame
      have hword : scheme = token.toList := by rw [← hsame, String.toList_ofList]
      exact ⟨token.toList, rest, by rw [hwords, hword]⟩
    · intro ⟨word, rest', hwords'⟩
      rw [hwords] at hwords'
      cases hwords'
      exact String.ofList_toList

end Proxy

section Sample

def headerRequest (header : String) : HttpRequest :=
  ⟨"GET", "/events", [], none, none, none, [("authorization", .str header)]⟩

theorem forwarded_token_canonical :
    (proxyRequest (headerRequest "Bearer  abc") (some "http://events")).bearerToken = some "abc" :=
  (forwarded_token_iff (headerRequest "Bearer  abc") "http://events" rfl (by decide)).mpr
    (.inl (by decide))

/-- The gateway takes `bearer abc` for the token `abc`; the backend gets `Bearer bearer abc`. -/
theorem forwarded_token_lost :
    ¬∀ (req : HttpRequest) (base header token : String),
      authorization req.headers = some header → bearerToken (some header) = some token →
      (proxyRequest req (some base)).bearerToken = some token := by
  intro h
  have hsame := h (headerRequest "bearer abc") "http://events" "bearer abc" "abc" rfl (by decide)
  exact absurd hsame (by decide)

end Sample
end MsaTuto
