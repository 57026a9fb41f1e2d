import Scrumboy.Go.Base64
import Scrumboy.Go.Errors
import Scrumboy.Go.Hex
import Scrumboy.Go.Sha256

/-!
# Password reset tokens

A reset token names a user and the time of its creation, and carries a signature that
also covers the hash of the password at that time. Nothing is stored for it: a token is
good as long as the hash of the user's password is the one that it was signed with.

Times are Unix seconds.
-/

namespace Scrumboy

open Go

def tokenExpiry : ℤ := 30 * 60

def clockSkew : ℤ := 5 * 60

/-- What `ParsePasswordResetToken` returns. -/
structure ResetToken where
  userID : ℤ
  timestamp : ℤ
  signature : List ℕ
  deriving DecidableEq, Repr

def resetPayload (userID timestamp : ℤ) : String := formatInt userID ++ "|" ++ formatInt timestamp

/-- The text that a signature covers. -/
def resetSignedText (userID timestamp : ℤ) (passwordHash : String) : String :=
  resetPayload userID timestamp ++ "|" ++ passwordHash

def resetSignature (secret : List ℕ) (text : String) : List ℕ := hmacSha256 secret (utf8Bytes text)

def resetTokenText (userID timestamp : ℤ) (signature : List ℕ) : String :=
  encodeToString (resetPayload userID timestamp ++ "|" ++ encodeHex signature)

/-- The token, and the time when it expires. -/
def generatePasswordResetToken (secret : List ℕ) (userID : ℤ) (passwordHash : String) (now : ℤ) :
    Except String (String × ℤ) :=
  if secret = [] then .error "secret required"
  else .ok (resetTokenText userID now (resetSignature secret (resetSignedText userID now passwordHash)),
    now + tokenExpiry)

/-- The fields of a decoded token, which `SplitN` separates with a limit of three. -/
def splitResetToken (decoded : String) : Option (String × String × String) :=
  match splitTwo '|' decoded with
  | [userID, rest] =>
      match splitTwo '|' rest with
      | [timestamp, signature] => some (userID, timestamp, signature)
      | _ => none
  | _ => none

def readResetToken : String × String × String → Except String ResetToken
  | (userID, timestamp, signature) => do
      let some userID := (parseInt userID).filter (0 < ·) | throw "invalid user id in token"
      let some timestamp := parseInt timestamp | throw "invalid timestamp in token"
      let some signature := (decodeHex signature).filter (·.length = 32) | throw "invalid signature"
      pure ⟨userID, timestamp, signature⟩

def parsePasswordResetToken (token : String) : Except String ResetToken := do
  let token := trimSpace token
  reject (token = "") "empty token"
  let some decoded := decodeString token | throw "invalid token encoding"
  let some parts := splitResetToken decoded | throw "invalid token format"
  readResetToken parts

/-- The sums of `VerifyPasswordResetToken` are taken in 64 bits. -/
def verifyPasswordResetToken (secret : List ℕ) (token : ResetToken) (passwordHash : String) (now : ℤ) :
    Except String Unit := do
  reject (secret = []) "secret required"
  reject (wrap (token.timestamp + tokenExpiry) < now) "token expired"
  reject (wrap (now + clockSkew) < token.timestamp) "token not yet valid"
  reject (token.signature.length ≠ 32) "invalid signature"
  reject (resetSignature secret (resetSignedText token.userID token.timestamp passwordHash) ≠
    token.signature) "signature mismatch"

theorem not_mem_formatInt (n : ℤ) : '|' ∉ (formatInt n).toList := by
  intro h
  rcases isDigit_of_mem_formatInt h with h | h
  · exact absurd h (by decide)
  · exact absurd h (by decide)

theorem splitTwo_formatInt (n : ℤ) (rest : String) :
    splitTwo '|' (formatInt n ++ "|" ++ rest) = [formatInt n, rest] :=
  splitTwo_of_not_mem (not_mem_formatInt n)

theorem formatInt_inj {m n : ℤ} (h : formatInt m = formatInt n) : m = n := by
  have hlist := congrArg String.toList h
  rw [toList_formatInt, toList_formatInt] at hlist
  have hdigits : ∀ k l : ℕ, Nat.toDigits 10 k = Nat.toDigits 10 l → k = l := by
    intro k l hkl
    have hread := parseDigits_toDigits k
    rw [hkl, parseDigits_toDigits] at hread
    exact (Option.some.inj hread).symm
  have hminus : ∀ k l : ℕ, '-' :: Nat.toDigits 10 k ≠ Nat.toDigits 10 l := by
    intro k l hkl
    have hdigit := Nat.isDigit_of_mem_toDigits (b := 10) (n := l) (c := '-') (by decide) (by decide)
      (hkl ▸ List.mem_cons_self)
    exact absurd hdigit (by decide)
  split at hlist
  · split at hlist
    · have := hdigits _ _ (List.cons.inj hlist).2
      omega
    · exact absurd hlist (hminus _ _)
  · split at hlist
    · exact absurd hlist.symm (hminus _ _)
    · have := hdigits _ _ hlist
      omega

/-- The fields of a signed text do not run into each other. -/
theorem resetSignedText_inj {userID timestamp userID' timestamp' : ℤ} {hash hash' : String}
    (h : resetSignedText userID timestamp hash = resetSignedText userID' timestamp' hash') :
    userID = userID' ∧ timestamp = timestamp' ∧ hash = hash' := by
  have hassoc : ∀ u t (hash : String),
      resetSignedText u t hash = formatInt u ++ "|" ++ (formatInt t ++ "|" ++ hash) := by
    intro u t hash
    simp only [resetSignedText, resetPayload, String.append_assoc]
  rw [hassoc, hassoc] at h
  have huser := congrArg (splitTwo '|') h
  rw [splitTwo_formatInt, splitTwo_formatInt, List.cons.injEq, List.cons.injEq] at huser
  have htime := congrArg (splitTwo '|') huser.2.1
  rw [splitTwo_formatInt, splitTwo_formatInt, List.cons.injEq, List.cons.injEq] at htime
  exact ⟨formatInt_inj huser.1, formatInt_inj htime.1, htime.2.1⟩

theorem ascii_of_mem_resetPayload {userID timestamp : ℤ} {c : Char}
    (h : c ∈ (resetPayload userID timestamp).toList) : c.toNat < 128 := by
  have hdigit : ∀ {n : ℤ}, c ∈ (formatInt n).toList → c.toNat < 128 := by
    intro n hc
    rcases isDigit_of_mem_formatInt hc with rfl | hd
    · decide
    · simp only [Char.isDigit, Bool.and_eq_true, decide_eq_true_eq] at hd
      have hhigh : c.toNat ≤ 57 := hd.2
      omega
  simp only [resetPayload, String.toList_append, List.mem_append] at h
  rcases h with (h | h) | h
  · exact hdigit h
  · rw [show ("|" : String).toList = ['|'] from rfl, List.mem_singleton] at h
    exact h ▸ by decide
  · exact hdigit h

theorem splitResetToken_text (userID timestamp : ℤ) (signature : String) :
    splitResetToken (resetPayload userID timestamp ++ "|" ++ signature) =
      some (formatInt userID, formatInt timestamp, signature) := by
  have hassoc : resetPayload userID timestamp ++ "|" ++ signature =
      formatInt userID ++ "|" ++ (formatInt timestamp ++ "|" ++ signature) := by
    simp only [resetPayload, String.append_assoc]
  simp only [splitResetToken, hassoc, splitTwo_formatInt]

/-- The fields of a token are found again. -/
theorem parse_resetTokenText_eq {userID timestamp : ℤ} {signature : List ℕ}
    (hbytes : ∀ b ∈ signature, b < 256) :
    parsePasswordResetToken (resetTokenText userID timestamp signature) =
      readResetToken (formatInt userID, formatInt timestamp, encodeHex signature) := by
  have hascii : ∀ c ∈ (resetPayload userID timestamp ++ "|" ++ encodeHex signature).toList,
      c.toNat < 128 := by
    intro c hc
    rw [String.toList_append, String.toList_append, List.mem_append, List.mem_append] at hc
    rcases hc with (hc | hc) | hc
    · exact ascii_of_mem_resetPayload hc
    · rw [show ("|" : String).toList = ['|'] from rfl, List.mem_singleton] at hc
      exact hc ▸ by decide
    · exact (ascii_of_mem_encodeHex hbytes hc).1
  have hne : resetPayload userID timestamp ++ "|" ++ encodeHex signature ≠ "" := by
    intro hempty
    have hlist := congrArg String.toList hempty
    simp at hlist
  have htrim : trimSpace (resetTokenText userID timestamp signature) =
      resetTokenText userID timestamp signature :=
    trimSpace_encodeBytesToString fun b hb => utf8Bytes_lt hb
  have hsome : resetTokenText userID timestamp signature ≠ "" := by
    rw [← htrim]
    exact trimSpace_encodeToString_ne hascii hne
  have hdecode : decodeString (resetTokenText userID timestamp signature) =
      some (resetPayload userID timestamp ++ "|" ++ encodeHex signature) :=
    decodeString_encodeToString hascii
  simp only [parsePasswordResetToken, htrim, reject, if_neg hsome, ok_bind, hdecode, splitResetToken_text]

/-- A token with a signature of 32 bytes is read back, unless its user id is not positive. -/
theorem parse_resetTokenText {userID timestamp : ℤ} {signature : List ℕ} (huser : IsInt64 userID)
    (htime : IsInt64 timestamp) (hbytes : ∀ b ∈ signature, b < 256) (hlength : signature.length = 32) :
    parsePasswordResetToken (resetTokenText userID timestamp signature) =
      if 0 < userID then .ok ⟨userID, timestamp, signature⟩ else .error "invalid user id in token" := by
  rw [parse_resetTokenText_eq hbytes]
  simp only [readResetToken, parseInt_formatInt huser, parseInt_formatInt htime, decodeHex_encodeHex hbytes]
  by_cases hpos : 0 < userID
  · simp [Option.filter, hpos, hlength]
  · simp [Option.filter, hpos]
    rfl

/-- A token that is read has the signature that was written. -/
theorem signature_of_parse {userID timestamp : ℤ} {signature : List ℕ} (hbytes : ∀ b ∈ signature, b < 256)
    {token : ResetToken}
    (h : parsePasswordResetToken (resetTokenText userID timestamp signature) = .ok token) :
    token.signature = signature := by
  rw [parse_resetTokenText_eq hbytes] at h
  unfold readResetToken at h
  dsimp only at h
  rw [decodeHex_encodeHex hbytes] at h
  split at h
  · split at h
    · split at h
      · rename_i hsignature
        rw [pure_eq_ok] at h
        rw [← h]
        exact (Option.some.inj (Option.filter_eq_some_iff.mp hsignature).1).symm
      · simp at h
    · simp at h
  · simp at h

/-- Reading undoes signing. -/
theorem parse_generate {secret : List ℕ} (hsecret : secret ≠ []) {userID now : ℤ}
    (huser : IsInt64 userID) (hnow : IsInt64 now) (passwordHash : String) :
    ∃ token, generatePasswordResetToken secret userID passwordHash now = .ok (token, now + tokenExpiry) ∧
      parsePasswordResetToken token =
        if 0 < userID then
          .ok ⟨userID, now, resetSignature secret (resetSignedText userID now passwordHash)⟩
        else .error "invalid user id in token" := by
  refine ⟨_, by rw [generatePasswordResetToken, if_neg hsecret], ?_⟩
  exact parse_resetTokenText huser hnow (fun b hb => mem_hmacSha256_lt hb) (length_hmacSha256 _ _)

/-- What a token that is verified has: the signature of the hash, and a time near the clock. -/
theorem verifyPasswordResetToken_eq_ok {secret : List ℕ} {token : ResetToken} {passwordHash : String}
    {now : ℤ} (htime : IsInt64 token.timestamp) (hnow : IsInt64 now)
    (h : verifyPasswordResetToken secret token passwordHash now = .ok ()) :
    token.signature = resetSignature secret (resetSignedText token.userID token.timestamp passwordHash) ∧
      now - tokenExpiry ≤ token.timestamp ∧ token.timestamp ≤ now + clockSkew := by
  simp only [verifyPasswordResetToken, bind_eq_ok, reject_eq_ok, not_not] at h
  obtain ⟨_, _, _, hexpiry, _, hskew, _, _, hsignature⟩ := h
  refine ⟨hsignature.symm, ?_⟩
  unfold IsInt64 minInt64 maxInt64 at htime hnow
  unfold wrap tokenExpiry at hexpiry
  unfold wrap clockSkew at hskew
  unfold tokenExpiry clockSkew
  omega

theorem isInt64_of_parseInt {s : String} {n : ℤ} (h : parseInt s = some n) : IsInt64 n := by
  unfold parseInt at h
  have hrange := (Option.filter_eq_some_iff.mp h).2
  simpa [IsInt64, minInt64, maxInt64] using hrange

/-- The numbers of a token that was read have 64 bits. -/
theorem isInt64_of_parse {text : String} {token : ResetToken}
    (h : parsePasswordResetToken text = .ok token) : IsInt64 token.timestamp := by
  simp only [parsePasswordResetToken, bind_eq_ok] at h
  obtain ⟨_, _, h⟩ := h
  split at h
  · split at h
    · rename_i parts _
      unfold readResetToken at h
      dsimp only at h
      split at h
      · split at h
        · rename_i htime
          split at h
          · rw [pure_eq_ok] at h
            exact h ▸ isInt64_of_parseInt htime
          · simp at h
        · simp at h
      · simp at h
    · simp at h
  · simp at h

end Scrumboy
