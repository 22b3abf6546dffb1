import CellGraph.Text.Utf8

/-!
# Base64

Three bytes become four letters; what is left over is padded with equals signs.
-/

namespace CellGraph.Package

/-- The letter of a number below sixty-four. -/
def base64Letter (n : Nat) : Char :=
  if n < 26 then Char.ofNat (65 + n)
  else if n < 52 then Char.ofNat (71 + n)
  else if n < 62 then Char.ofNat (n - 4)
  else if n = 62 then '+'
  else '/'

/-- Bytes as letters. -/
def base64 : Text.Bytes → List Char
  | a :: b :: c :: rest =>
    let n := a.toNat * 65536 + b.toNat * 256 + c.toNat
    base64Letter (n / 262144) :: base64Letter (n / 4096 % 64) :: base64Letter (n / 64 % 64) ::
      base64Letter (n % 64) :: base64 rest
  | [a, b] =>
    let n := a.toNat * 256 + b.toNat
    [base64Letter (n / 1024), base64Letter (n / 16 % 64), base64Letter (n * 4 % 64), '=']
  | [a] => [base64Letter (a.toNat / 4), base64Letter (a.toNat * 16 % 64), '=', '=']
  | [] => []

end CellGraph.Package
