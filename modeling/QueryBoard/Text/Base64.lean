/-!
# Base64

The standard alphabet with padding: every three bytes become four letters of six bits each, and
the last group is filled up with `=`.
-/

set_option autoImplicit false

namespace QueryBoard.Text

def base64Alphabet : List Char :=
  "ABCDEFGHIJKLMNOPQRSTUVWXYZabcdefghijklmnopqrstuvwxyz0123456789+/".toList

def base64Letter (n : Nat) : Char := base64Alphabet.getD (n % 64) 'A'

def base64Letters : List UInt8 → List Char
  | [] => []
  | [a] =>
    let n := a.toNat * 16
    [base64Letter (n / 64), base64Letter n, '=', '=']
  | [a, b] =>
    let n := (a.toNat * 256 + b.toNat) * 4
    [base64Letter (n / 4096), base64Letter (n / 64), base64Letter n, '=']
  | a :: b :: c :: rest =>
    let n := (a.toNat * 256 + b.toNat) * 256 + c.toNat
    base64Letter (n / 262144) :: base64Letter (n / 4096) :: base64Letter (n / 64) ::
      base64Letter n :: base64Letters rest

def base64 (bytes : List UInt8) : String := String.ofList (base64Letters bytes)

end QueryBoard.Text
