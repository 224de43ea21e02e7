import VisibleText.Unicode.CharSet

namespace VisibleText.Unicode

/-- Runs of two-member classes: the first lower member, how many classes, the step from one to the
next, and how far the other member is. -/
def foldRuns : String :=
  "1t a 1 w 24 8 2 w 25 3 2 w 2d 3 2 w 5c g 2 w 5d 2 2 w 5j 8 2 w 61 3 2 w 67 1 1 5vj 73 1 1 3d
    74 o 2 1 8i 3 2 1 8p 8 2 1 96 n 2 1 ah 3 2 1 ao 1 1 5f ap 1 1 5u aq 2 2 1 au 1 1 5q av 1 1 1
    ax 2 1 5p az 1 1 1 b2 1 1 27 b3 1 1 5m b4 1 1 5n b5 1 1 1 b7 1 1 5p b8 1 1 5r b9 1 1 2p ba 1
    1 5v bb 1 1 5t bc 1 1 1 be 1 1 4j bf 1 1 wu9 bg 1 1 5v bh 1 1 5x bi 1 1 3m bj 1 1 5y bk 3 2
    1 bq 1 1 62 br 1 1 1 bt 1 1 62 bw 1 1 1 by 1 1 62 bz 1 1 1 c1 2 1 61 c3 2 2 1 c7 1 1 63 c8 1
    1 1 cc 1 1 1 cf 1 1 1k ct 8 2 1 da 9 2 1 dw 1 1 1 e0 k 2 1 f6 9 2 1 fu 1 1 8bv fv 1 1 1 fy 1
    1 8bs fz 2 1 8cf g1 1 1 1 g4 1 1 1x g5 1 1 1z g6 5 2 1 gg 1 1 8bj gh 1 1 8bg gi 1 1 8bi gs 1
    1 wnj gx 1 1 wnf h0 1 1 wo7 h1 1 1 wmg h2 1 1 wn8 h6 1 1 wn8 h7 1 1 8af h8 1 1 wn5 hd 1 1
    8al hp 1 1 89z hu 1 1 wn7 hz 1 1 wmi il 1 1 wlx im 1 1 wlu og 2 2 1 om 1 1 1 or 3 1 3m ov 1
    1 38 p2 1 1 12 p4 3 1 11 p8 1 1 1s pa 2 1 1r pc 1 1 5kz pd 2 2 w pg 2 2 w pj 1 1 w pn 3 2 w
    pq 1 1 w pw 2 1 w pz 2 1 w q2 2 1 w q8 1 1 5kj r3 1 1 8 rc c 2 1 s2 1 1 7 s7 1 1 1 sa 1 1 1
    sg g 1 28 sw 2 1 w sz 7 2 w t2 4 2 w tc 1 1 w tf 7 1 w tn 5 1 w v4 1 1 1 v8 f 2 1 wa r 2 1
    xs 1 1 f xt 7 2 1 y8 1c 2 1 10x 12 1 1c 3a8 12 1 5ls 3bb 1 1 5ls 3bh 1 1 5ls 3bk 17 1 2bk
    3ct 3 1 2bk 3vk 28 1 tzk 3xs 6 1 8 5mx 1 1 1 5tl 1 1 r9g 5tp 1 1 2xy 5u6 1 1 raw 5xc 1c 2 1
    602 q 2 1 61s 1c 2 1 64g 8 1 8 64w 6 1 8 65c 8 1 8 65s 8 1 8 668 6 1 8 66p 4 2 8 674 8 1 8
    67k 2 1 22 67m 4 1 2e 67q 2 1 2s 67s 2 1 3k 67u 2 1 34 67w 2 1 3i 680 8 1 8 68g 8 1 8 68w 8
    1 8 69c 2 1 8 69f 1 1 9 69v 1 1 9 6a8 2 1 8 6ao 2 1 8 6at 1 1 7 6b7 1 1 9 6k2 1 1 s 6lc g 1
    g 6mb 1 1 1 792 q 1 q 8ow 1c 1 1c 8rk 1 1 1 8rr 3 2 1 8s2 1 1 1 8s5 1 1 1 8sg 1e 2 1 8vf 2 2
    1 8vm 1 1 1 wu8 5 2 1 wuk h 2 1 ww0 e 2 1 x0i 7 2 1 x0y v 2 1 x2x 2 2 1 x32 5 2 1 x3f 1 1 1
    x3k 2 2 1 x3o 1 1 1c x3q a 2 1 x4j 1 1 ps x4k 8 2 1 x53 2 2 1 x58 1 1 1 x5c 1 1 1 x5i 3 2 1
    x6d 1 1 1 1dl1 1 1 1 1ee9 q 1 w 1fcw 14 1 14 1fhs 10 1 14 1fn4 j 2 13 1fn5 5 2 13 1fnh 7 2
    13 1fnx 3 2 13 1fo5 1 1 13 1h1c 1f 1 1s 1h74 m 1 w 1jfk w 1 w 20cg w 1 w 2olc y 1 y"

def foldClasses : List (List Nat) := [
  [0x4B, 0x6B, 0x212A], [0x53, 0x73, 0x17F], [0xB5, 0x39C, 0x3BC], [0xC5, 0xE5, 0x212B],
  [0x1C4, 0x1C5, 0x1C6], [0x1C7, 0x1C8, 0x1C9], [0x1CA, 0x1CB, 0x1CC], [0x1F1, 0x1F2, 0x1F3],
  [0x345, 0x399, 0x3B9, 0x1FBE], [0x392, 0x3B2, 0x3D0], [0x395, 0x3B5, 0x3F5],
  [0x398, 0x3B8, 0x3D1, 0x3F4], [0x39A, 0x3BA, 0x3F0], [0x3A0, 0x3C0, 0x3D6],
  [0x3A1, 0x3C1, 0x3F1], [0x3A3, 0x3C2, 0x3C3], [0x3A6, 0x3C6, 0x3D5], [0x3A9, 0x3C9, 0x2126],
  [0x412, 0x432, 0x1C80], [0x414, 0x434, 0x1C81], [0x41E, 0x43E, 0x1C82], [0x421, 0x441, 0x1C83],
  [0x422, 0x442, 0x1C84, 0x1C85], [0x42A, 0x44A, 0x1C86], [0x462, 0x463, 0x1C87],
  [0x1C88, 0xA64A, 0xA64B], [0x1E60, 0x1E61, 0x1E9B]]

def foldRunsOf : List Nat → List (Nat × Nat × Nat × Nat)
  | first :: count :: step :: delta :: rest => (first, count, step, delta) :: foldRunsOf rest
  | _ => []

def caseClasses : List (List Nat) :=
  foldClasses ++ (foldRunsOf (CharSet.numbers foldRuns)).flatMap fun (first, count, step, delta) =>
    (List.range count).map fun i => [first + step * i, first + step * i + delta]

def closeUnderCase (s : CharSet) : CharSet :=
  let touched := caseClasses.filter fun cls => cls.any fun n => CharSet.containsCode n s.runs
  .ofRuns (s.runs ++ touched.flatten.map fun n => (n, n))

end VisibleText.Unicode
