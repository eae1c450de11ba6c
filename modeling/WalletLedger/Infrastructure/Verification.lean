import WalletLedger.Infrastructure.Payments

/-!
# The verification of a webhook

What a signature header presents, and when `verify_webhook` accepts it.

* `Presents` — the bytes a header claims to sign, and the digest it claims they have.
* `Verifies` — a verification that always answers, and accepts exactly the right digests.
-/

namespace WalletLedger

/-! ## The providers -/

/-- The three providers. -/
inductive Provider where
  | stripe
  | pawapay
  | paypal
  deriving DecidableEq

/-- The provider that a name stands for. -/
def Provider.ofName (name : String) : Option Provider :=
  match name.toLower with
  | "stripe" => some .stripe
  | "pawapay" => some .pawapay
  | "paypal" => some .paypal
  | _ => none

namespace Payments

def adapter (pay : Payments) : Provider → PaymentAdapter
  | .stripe => pay.stripe.adapter pay.services
  | .pawapay => pay.pawapay.adapter pay.services
  | .paypal => pay.paypal.adapter pay.services

def webhookSecret (pay : Payments) : Provider → String
  | .stripe => pay.stripe.webhookSecret
  | .pawapay => pay.pawapay.webhookSecret
  | .paypal => pay.paypal.webhookSecret

theorem getPaymentProvider_eq (pay : Payments) (name : String) :
    pay.getPaymentProvider name =
      match Provider.ofName name with
      | some p => .ok (pay.adapter p)
      | none => .error (.domain (.unsupportedProvider name)) := by
  unfold getPaymentProvider Provider.ofName
  generalize name.toLower = key
  by_cases hstripe : key = "stripe"
  · subst hstripe
    rfl
  by_cases hpawapay : key = "pawapay"
  · subst hpawapay
    rfl
  by_cases hpaypal : key = "paypal"
  · subst hpaypal
    rfl
  · simp

theorem getPaymentProvider_ok_iff {pay : Payments} {name : String} {a : PaymentAdapter} :
    pay.getPaymentProvider name = .ok a ↔
      ∃ p, Provider.ofName name = some p ∧ a = pay.adapter p := by
  rw [getPaymentProvider_eq]
  cases Provider.ofName name with
  | none => simp
  | some p => simp [eq_comm]

end Payments

/-! ## The pieces of a header -/

/-- The last piece of the header for this key is `key=value`. -/
def HasPart (signature key value : String) : Prop :=
  ∃ before after,
    signature.toList.splitOn ',' = before ++ (key.toList ++ '=' :: value.toList) :: after ∧
      ∀ piece ∈ after, ¬ key.toList ++ ['='] <+: piece

namespace StripeProvider

/-- A piece, cut at its first `=`. -/
def part (piece : List Char) : Option (String × String) :=
  match piece.dropWhile (· ≠ '=') with
  | [] => none
  | _ :: value => some (String.ofList (piece.takeWhile (· ≠ '=')), String.ofList value)

theorem signatureParts_eq (signature : String) :
    signatureParts signature = ((signature.toList.splitOn ',').filterMap part).reverse := rfl

/-- A piece of a key is read as it was written. -/
theorem part_append {key : List Char} (hkey : '=' ∉ key) (value : List Char) :
    part (key ++ '=' :: value) = some (String.ofList key, String.ofList value) := by
  have htest : ∀ c ∈ key, (decide (c ≠ '=')) = true := by
    intro c hc
    rw [decide_eq_true_eq]
    rintro rfl
    exact hkey hc
  unfold part
  rw [List.dropWhile_append_of_pos htest, List.takeWhile_append_of_pos htest]
  simp

/-- A piece that is read was one of its key. -/
theorem part_eq_some {piece : List Char} {key value : String} (h : part piece = some (key, value)) :
    piece = key.toList ++ '=' :: value.toList := by
  unfold part at h
  have hsplit : piece.takeWhile (· ≠ '=') ++ piece.dropWhile (· ≠ '=') = piece :=
    List.takeWhile_append_dropWhile
  have hhead := List.head?_dropWhile_not (fun c : Char => decide (c ≠ '=')) piece
  revert h
  cases hdrop : piece.dropWhile (· ≠ '=') with
  | nil =>
    intro h
    cases h
  | cons c rest =>
    intro h
    cases h
    rw [hdrop] at hsplit hhead
    obtain rfl : c = '=' := by simpa using hhead
    rw [String.toList_ofList, String.toList_ofList, hsplit]

/-- The first piece of a key is the one that is found. -/
theorem lookup_filterMap_part {key : String} (hkey : '=' ∉ key.toList) (value : String)
    (pieces : List (List Char)) :
    (pieces.filterMap part).lookup key = some value ↔
      ∃ before after, pieces = before ++ (key.toList ++ '=' :: value.toList) :: after ∧
        ∀ piece ∈ before, ¬ key.toList ++ ['='] <+: piece := by
  induction pieces with
  | nil => simp
  | cons piece pieces ih =>
    by_cases hp : key.toList ++ ['='] <+: piece
    · obtain ⟨rest, rfl⟩ := hp
      rw [List.append_assoc, List.singleton_append,
        List.filterMap_cons_some (part_append hkey rest), String.ofList_toList,
        List.lookup_cons_self, Option.some_inj]
      constructor
      · rintro rfl
        exact ⟨[], pieces, by rw [String.toList_ofList]; rfl, by simp⟩
      · rintro ⟨_ | ⟨first, before⟩, after, heq, hbefore⟩
        · have hvalue := (List.cons.inj heq).1
          simpa using congrArg String.ofList (List.cons.inj (List.append_cancel_left hvalue)).2
        · have hfirst := (List.cons.inj heq).1
          refine absurd ⟨rest, ?_⟩ (hbefore first List.mem_cons_self)
          rw [← hfirst, List.append_assoc, List.singleton_append]
    · have hskip : ((piece :: pieces).filterMap part).lookup key =
          (pieces.filterMap part).lookup key := by
        cases hpart : part piece with
        | none => rw [List.filterMap_cons_none hpart]
        | some x =>
          have hne : key ≠ x.1 := by
            rintro rfl
            refine hp ⟨x.2.toList, ?_⟩
            rw [part_eq_some hpart, List.append_assoc, List.singleton_append]
          rw [List.filterMap_cons_some hpart, List.lookup_cons, beq_false_of_ne hne]
      rw [hskip, ih]
      constructor
      · rintro ⟨before, after, rfl, hbefore⟩
        exact ⟨piece :: before, after, rfl, List.forall_mem_cons.2 ⟨hp, hbefore⟩⟩
      · rintro ⟨_ | ⟨first, before⟩, after, heq, hbefore⟩
        · refine absurd ⟨value.toList, ?_⟩ hp
          rw [(List.cons.inj heq).1, List.append_assoc, List.singleton_append]
        · exact ⟨before, after, (List.cons.inj heq).2, fun x hx =>
            hbefore x (List.mem_cons_of_mem _ hx)⟩

/-- The dictionary keeps the last piece of a key. -/
theorem lookup_signatureParts {key : String} (hkey : '=' ∉ key.toList) (signature value : String) :
    (signatureParts signature).lookup key = some value ↔ HasPart signature key value := by
  rw [signatureParts_eq, ← List.filterMap_reverse, lookup_filterMap_part hkey]
  constructor
  · rintro ⟨before, after, heq, hbefore⟩
    refine ⟨after.reverse, before.reverse, ?_, by simpa using hbefore⟩
    simpa using congrArg List.reverse heq
  · rintro ⟨before, after, heq, hafter⟩
    exact ⟨after.reverse, before.reverse, by rw [heq]; simp, by simpa using hafter⟩

/-- What is found, if it is not empty, is that piece. -/
theorem hasPart_getD {key : String} (hkey : '=' ∉ key.toList) {signature : String}
    (h : ((signatureParts signature).lookup key).getD "" ≠ "") :
    HasPart signature key (((signatureParts signature).lookup key).getD "") := by
  rw [← lookup_signatureParts hkey]
  cases hl : (signatureParts signature).lookup key with
  | none =>
    rw [hl] at h
    exact absurd rfl h
  | some value => rfl

end StripeProvider

/-! ## What is verified -/

/-- A header presents a digest: the bytes it is the digest of, and the digest. -/
inductive Presents (rawBody : Bytes) (signature : String) : Provider → Bytes → String → Prop
  | stripe {timestamp digest : String} (t : HasPart signature "t" timestamp) (t_ne : timestamp ≠ "")
      (v1 : HasPart signature "v1" digest) (v1_ne : digest ≠ "") :
      Presents rawBody signature .stripe (encode (timestamp ++ ".") ++ rawBody) digest
  | pawapay (ne : signature ≠ "") : Presents rawBody signature .pawapay rawBody signature
  | paypal (ne : signature ≠ "") : Presents rawBody signature .paypal rawBody signature

/-- A verification that always answers, refuses what is not presented or has no secret to be
checked against, and accepts exactly the digests under the secret. -/
structure Verifies (services : PaymentServices) (secret : String) (p : Provider) (rawBody : Bytes)
    (signature : String) (verified : Except Exn Bool) : Prop where
  answers : verified.isOk
  refuses : (secret = "" ∨ signature = "" ∨ ∀ message digest,
    ¬ Presents rawBody signature p message digest) → verified = .ok false
  accepts : verified = .ok true ↔ secret ≠ "" ∧
    ∃ message digest, Presents rawBody signature p message digest ∧
      digest = services.hmacSha256Hex secret message

/-- A text of ASCII characters. -/
def IsAscii (s : String) : Prop := ∀ c ∈ s.toList, c.toNat < 128

instance (s : String) : Decidable (IsAscii s) :=
  List.decidableBAll (fun c : Char => c.toNat < 128) s.toList

/-- The signature function returns lower-case hexadecimal. -/
def PaymentServices.HexDigests (services : PaymentServices) : Prop :=
  ∀ secret message, ∀ c ∈ (services.hmacSha256Hex secret message).toList,
    c ∈ "0123456789abcdef".toList

/-- Two texts are compared when both are ASCII. -/
theorem compareDigest_eq {expected provided : String} (hexpected : IsAscii expected) :
    compareDigest expected provided =
      if IsAscii provided then .ok (expected = provided) else .error .typeError := by
  unfold compareDigest
  refine if_congr ?_ rfl rfl
  rw [String.toList_append, List.all_append, Bool.and_eq_true, List.all_eq_true, List.all_eq_true]
  simp only [decide_eq_true_eq]
  exact and_iff_right hexpected

theorem PaymentServices.HexDigests.isAscii {services : PaymentServices} (h : services.HexDigests)
    (secret : String) (message : Bytes) : IsAscii (services.hmacSha256Hex secret message) := by
  have hdigits : IsAscii "0123456789abcdef" := by decide
  exact fun c hc => hdigits c (h secret message c hc)

/-- A header presents at most one digest. -/
theorem Presents.unique {rawBody : Bytes} {signature : String} {p : Provider} {m m' : Bytes}
    {d d' : String} (h : Presents rawBody signature p m d)
    (h' : Presents rawBody signature p m' d') : m' = m ∧ d' = d := by
  cases h with
  | stripe t _ v1 _ =>
    cases h' with
    | stripe t' _ v1' _ =>
      rw [← StripeProvider.lookup_signatureParts (by decide)] at t v1 t' v1'
      cases t.symm.trans t'
      cases v1.symm.trans v1'
      exact ⟨rfl, rfl⟩
  | pawapay _ =>
    cases h'
    exact ⟨rfl, rfl⟩
  | paypal _ =>
    cases h'
    exact ⟨rfl, rfl⟩

/-- A header that presents a digest is not empty. -/
theorem Presents.signature_ne {rawBody : Bytes} {signature : String} {p : Provider} {m : Bytes}
    {d : String} (h : Presents rawBody signature p m d) : signature ≠ "" := by
  cases h with
  | stripe t _ _ _ =>
    rintro rfl
    rw [← StripeProvider.lookup_signatureParts (by decide)] at t
    cases t
  | pawapay ne => exact ne
  | paypal ne => exact ne

namespace Payments

variable {pay : Payments} {p : Provider} {rawBody : Bytes} {signature : String}

/-- Nothing to check, or no secret to check it against: refused. -/
theorem verifyWebhook_refuses (h : pay.webhookSecret p = "" ∨
    ∀ message digest, ¬ Presents rawBody signature p message digest) :
    (pay.adapter p).verifyWebhook rawBody signature = .ok false := by
  cases p with
  | stripe =>
    by_cases hempty : pay.stripe.webhookSecret = "" ∨ signature = ""
    · exact if_pos hempty
    have hnone := h.resolve_left fun hs => hempty (.inl hs)
    refine (if_neg hempty).trans (if_pos ?_)
    by_contra hparts
    obtain ⟨ht, hv1⟩ := not_or.1 hparts
    exact hnone _ _ (.stripe (StripeProvider.hasPart_getD (by decide) ht) ht
      (StripeProvider.hasPart_getD (by decide) hv1) hv1)
  | pawapay => exact if_pos (h.imp_right fun hnone => by_contra fun hne => hnone _ _ (.pawapay hne))
  | paypal => exact if_pos (h.imp_right fun hnone => by_contra fun hne => hnone _ _ (.paypal hne))

/-- What a header presents is compared with the digest under the secret. -/
theorem verifyWebhook_compares (hs : pay.webhookSecret p ≠ "") {message : Bytes} {digest : String}
    (h : Presents rawBody signature p message digest) :
    (pay.adapter p).verifyWebhook rawBody signature =
      compareDigest (pay.services.hmacSha256Hex (pay.webhookSecret p) message) digest := by
  have hsignature := h.signature_ne
  cases h with
  | stripe t t_ne v1 v1_ne =>
    rw [← StripeProvider.lookup_signatureParts (by decide)] at t v1
    refine (if_neg (not_or.2 ⟨hs, hsignature⟩)).trans ?_
    rw [t, v1]
    exact if_neg (not_or.2 ⟨t_ne, v1_ne⟩)
  | pawapay ne => exact if_neg (not_or.2 ⟨hs, ne⟩)
  | paypal ne => exact if_neg (not_or.2 ⟨hs, ne⟩)

/-- A verification is total and exact exactly when the digest that is presented to it, if it
has a secret to compare it under, is an ASCII text. -/
theorem verifyWebhook_verifies_iff (hhex : pay.services.HexDigests) :
    Verifies pay.services (pay.webhookSecret p) p rawBody signature
        ((pay.adapter p).verifyWebhook rawBody signature) ↔
      (pay.webhookSecret p ≠ "" → ∀ message digest,
        Presents rawBody signature p message digest → IsAscii digest) := by
  constructor
  · intro h hs message digest hpresents
    have hanswers := h.answers
    rw [verifyWebhook_compares hs hpresents, compareDigest_eq (hhex.isAscii _ _)] at hanswers
    by_contra hascii
    rw [if_neg hascii] at hanswers
    cases hanswers
  · intro hascii
    have hrefuses : (pay.webhookSecret p = "" ∨ signature = "" ∨ ∀ message digest,
        ¬ Presents rawBody signature p message digest) →
        (pay.adapter p).verifyWebhook rawBody signature = .ok false := by
      rintro (h | h | h)
      · exact verifyWebhook_refuses (.inl h)
      · exact verifyWebhook_refuses (.inr fun _ _ hpresents => hpresents.signature_ne h)
      · exact verifyWebhook_refuses (.inr h)
    by_cases hs : pay.webhookSecret p = ""
    · rw [hrefuses (.inl hs)]
      exact ⟨rfl, fun _ => rfl, by simp [hs]⟩
    by_cases hpresents : ∃ message digest, Presents rawBody signature p message digest
    · obtain ⟨message, digest, hpresents⟩ := hpresents
      refine ⟨?_, hrefuses, ?_⟩ <;> rw [verifyWebhook_compares hs hpresents,
        compareDigest_eq (hhex.isAscii _ _), if_pos (hascii hs _ _ hpresents)]
      · rfl
      · rw [Except.ok.injEq, decide_eq_true_eq]
        refine ⟨fun h => ⟨hs, message, digest, hpresents, h.symm⟩, ?_⟩
        rintro ⟨-, message', digest', hpresents', rfl⟩
        obtain ⟨rfl, h⟩ := hpresents.unique hpresents'
        exact h
    · have hnone : ∀ message digest, ¬ Presents rawBody signature p message digest :=
        fun m d h => hpresents ⟨m, d, h⟩
      rw [hrefuses (.inr (.inr hnone))]
      refine ⟨rfl, fun _ => rfl, ?_, ?_⟩
      · intro h
        cases h
      · rintro ⟨-, m, d, h, -⟩
        exact absurd h (hnone m d)

end Payments

/-! ## A signature that is no ASCII text -/

/-- The body of an empty object. -/
def emptyObject : Bytes := encode "\x7b\x7d"

/-- Providers that share a secret; the signature function gives the digest of that body under it. -/
def signedPayments : Payments :=
  { stripe := ⟨"", "s3cr3t"⟩
    pawapay := ⟨"", "s3cr3t"⟩
    paypal := ⟨"", "", "s3cr3t"⟩
    services :=
      { hmacSha256Hex := fun _ _ =>
          "608b0c406f3dda19702d71a048483b8c331283106d80a208e3cf43dbde505286"
        stripeIntents := fun _ => .error .httpError
        pawapayDeposits := fun _ => .error .httpError
        paypalOrders := fun _ => .error .httpError
        varchar := fun _ => .error (.service .operational)
        text := fun _ => "" } }

theorem signedPayments_hexDigests : signedPayments.services.HexDigests := by
  intro secret message
  have hall : ("608b0c406f3dda19702d71a048483b8c331283106d80a208e3cf43dbde505286".toList.all
      (· ∈ "0123456789abcdef".toList)) = true := by decide
  exact fun c hc => of_decide_eq_true (List.all_eq_true.1 hall c hc)

/-- A webhook of PayPal signed `é`: the comparison raises. -/
theorem not_verifies_nonAscii :
    (signedPayments.adapter .paypal).verifyWebhook emptyObject "é" = .error .typeError ∧
      ¬ Verifies signedPayments.services (signedPayments.webhookSecret .paypal) .paypal
        emptyObject "é" ((signedPayments.adapter .paypal).verifyWebhook emptyObject "é") := by
  have hraises : (signedPayments.adapter .paypal).verifyWebhook emptyObject "é" =
      .error .typeError := by decide +kernel
  refine ⟨hraises, fun h => ?_⟩
  have hanswers := h.answers
  rw [hraises] at hanswers
  cases hanswers

/-- An empty object with its own digest. -/
theorem verifyWebhook_verifies_digest :
    Verifies signedPayments.services (signedPayments.webhookSecret .pawapay) .pawapay emptyObject
      "608b0c406f3dda19702d71a048483b8c331283106d80a208e3cf43dbde505286"
      ((signedPayments.adapter .pawapay).verifyWebhook emptyObject
        "608b0c406f3dda19702d71a048483b8c331283106d80a208e3cf43dbde505286") :=
  (Payments.verifyWebhook_verifies_iff signedPayments_hexDigests).2 fun _ _ _ h => by
    cases h
    decide

end WalletLedger
