import NvidiaGsp.Display.HdmiDsc

/-!
# Display.HdmiDscPps

The picture parameter set of a compressed HDMI picture: `dsc.generate` (`gsp_dsc.zig`) around the
vendored generator (`nvt_dsc_pps.c`), as the search calls it: RGB of eight or ten bits per component
on one head, with a forced depth and slice width. A status other than success is `none`. The
integers are `NvU32`; a difference that may wrap is `sub32`.
-/

namespace NvidiaGsp
namespace Hdmi
namespace Pps

open Bytes
open Mst.Payload (Clock)

/-! ## Tables -/

def minqp444_8b : List (List Nat) :=
  [[0, 0, 0, 0, 0, 0, 0, 0, 0, 0, 0, 0, 0, 0, 0, 0, 0, 0, 0, 0, 0, 0, 0, 0, 0, 0, 0, 0, 0, 0, 0,
    0, 0, 0, 0, 0, 0],
   [1, 1, 0, 0, 0, 0, 0, 0, 0, 0, 0, 0, 0, 0, 0, 0, 0, 0, 0, 0, 0, 0, 0, 0, 0, 0, 0, 0, 0, 0, 0,
    0, 0, 0, 0, 0, 0],
   [3, 2, 2, 2, 1, 1, 1, 1, 1, 1, 1, 1, 1, 1, 1, 0, 0, 0, 0, 0, 0, 0, 0, 0, 0, 0, 0, 0, 0, 0, 0,
    0, 0, 0, 0, 0, 0],
   [3, 3, 2, 2, 1, 1, 1, 1, 1, 1, 1, 1, 1, 1, 1, 1, 0, 0, 0, 0, 0, 0, 0, 0, 0, 0, 0, 0, 0, 0, 0,
    0, 0, 0, 0, 0, 0],
   [5, 4, 4, 3, 3, 3, 3, 3, 3, 3, 3, 3, 3, 3, 2, 1, 1, 1, 1, 1, 1, 1, 1, 1, 1, 1, 1, 1, 0, 0, 0,
    0, 0, 0, 0, 0, 0],
   [5, 4, 4, 4, 3, 3, 3, 3, 3, 3, 3, 3, 3, 3, 3, 2, 1, 1, 1, 1, 1, 1, 1, 1, 1, 1, 1, 1, 1, 1, 0,
    0, 0, 0, 0, 0, 0],
   [5, 5, 4, 4, 3, 3, 3, 3, 3, 3, 3, 3, 3, 3, 3, 2, 2, 2, 1, 1, 1, 1, 1, 1, 1, 1, 1, 1, 1, 1, 0,
    0, 0, 0, 0, 0, 0],
   [5, 5, 4, 4, 3, 3, 3, 3, 3, 3, 3, 3, 3, 3, 3, 2, 2, 2, 2, 2, 2, 2, 2, 2, 2, 2, 1, 1, 1, 1, 1,
    1, 0, 0, 0, 0, 0],
   [5, 5, 4, 4, 3, 3, 3, 3, 3, 3, 3, 3, 3, 3, 3, 2, 2, 2, 2, 2, 2, 2, 2, 2, 2, 2, 2, 2, 1, 1, 1,
    1, 1, 1, 0, 0, 0],
   [6, 5, 5, 4, 4, 4, 3, 3, 3, 3, 3, 3, 3, 3, 3, 3, 3, 3, 3, 3, 3, 3, 3, 3, 3, 3, 2, 2, 1, 1, 1,
    1, 1, 1, 0, 0, 0],
   [6, 6, 5, 5, 5, 5, 5, 5, 5, 5, 5, 5, 5, 4, 4, 4, 4, 4, 4, 4, 4, 4, 3, 3, 3, 3, 2, 2, 1, 1, 1,
    1, 1, 1, 1, 1, 0],
   [6, 6, 6, 5, 5, 5, 5, 5, 5, 5, 5, 5, 5, 5, 5, 5, 5, 4, 4, 4, 4, 4, 4, 4, 4, 4, 3, 3, 2, 2, 2,
    2, 1, 1, 1, 1, 0],
   [6, 6, 6, 6, 5, 5, 5, 5, 5, 5, 5, 5, 5, 5, 5, 5, 5, 5, 5, 5, 5, 5, 4, 4, 4, 4, 3, 3, 2, 2, 2,
    2, 1, 1, 1, 1, 0],
   [9, 9, 9, 9, 8, 8, 7, 7, 7, 7, 7, 7, 7, 7, 7, 7, 7, 7, 7, 7, 6, 6, 5, 5, 5, 5, 4, 4, 3, 3, 3,
    3, 2, 2, 1, 1, 1],
   [14, 14, 13, 13, 12, 12, 12, 12, 11, 11, 10, 10, 10, 10, 9, 9, 9, 8, 8, 8, 7, 7, 7, 7, 6, 6, 5,
    5, 5, 5, 4, 4, 4, 3, 3, 3, 3]]

def maxqp444_8b : List (List Nat) :=
  [[4, 4, 4, 4, 4, 4, 3, 3, 3, 3, 2, 2, 2, 2, 1, 1, 1, 0, 0, 0, 0, 0, 0, 0, 0, 0, 0, 0, 0, 0, 0,
    0, 0, 0, 0, 0, 0],
   [6, 6, 5, 5, 4, 4, 4, 4, 4, 4, 4, 4, 3, 3, 3, 2, 2, 1, 1, 1, 1, 1, 1, 1, 1, 1, 1, 1, 1, 1, 1,
    1, 0, 0, 0, 0, 0],
   [8, 7, 7, 6, 5, 5, 5, 5, 5, 5, 5, 5, 4, 4, 4, 3, 2, 2, 1, 1, 1, 1, 1, 1, 1, 1, 1, 1, 1, 1, 1,
    1, 0, 0, 0, 0, 0],
   [8, 8, 7, 7, 6, 6, 6, 6, 6, 6, 6, 6, 5, 5, 5, 4, 3, 3, 2, 2, 2, 2, 2, 2, 2, 2, 1, 1, 1, 1, 1,
    1, 1, 1, 1, 1, 0],
   [9, 8, 8, 7, 7, 7, 7, 7, 7, 7, 7, 7, 6, 6, 5, 4, 4, 3, 2, 2, 2, 2, 2, 2, 2, 2, 2, 2, 1, 1, 1,
    1, 1, 1, 1, 1, 0],
   [9, 8, 8, 8, 7, 7, 7, 7, 7, 7, 7, 7, 6, 6, 6, 5, 4, 4, 3, 3, 3, 3, 3, 3, 3, 3, 2, 2, 2, 2, 1,
    1, 1, 1, 1, 1, 1],
   [9, 9, 8, 8, 7, 7, 7, 7, 7, 7, 7, 7, 7, 6, 6, 5, 4, 4, 3, 3, 3, 3, 3, 3, 3, 3, 2, 2, 2, 2, 1,
    1, 1, 1, 1, 1, 1],
   [10, 10, 9, 9, 8, 8, 8, 8, 8, 8, 8, 8, 8, 7, 7, 6, 5, 5, 4, 4, 4, 4, 3, 3, 3, 3, 2, 2, 2, 2, 2,
    2, 1, 1, 1, 1, 1],
   [11, 11, 10, 10, 9, 9, 9, 9, 9, 9, 8, 8, 8, 7, 7, 6, 6, 5, 5, 5, 5, 5, 4, 4, 4, 4, 3, 3, 2, 2,
    2, 2, 2, 2, 1, 1, 1],
   [12, 11, 11, 10, 10, 10, 9, 9, 9, 9, 9, 9, 9, 8, 8, 7, 6, 6, 5, 5, 5, 5, 4, 4, 4, 4, 3, 3, 2,
    2, 2, 2, 2, 2, 1, 1, 1],
   [12, 12, 11, 11, 10, 10, 10, 10, 10, 10, 9, 9, 9, 8, 8, 7, 7, 6, 6, 6, 5, 5, 4, 4, 4, 4, 3, 3,
    2, 2, 2, 2, 2, 2, 2, 2, 1],
   [12, 12, 12, 11, 11, 11, 10, 10, 10, 10, 9, 9, 9, 9, 8, 8, 8, 7, 7, 7, 6, 6, 5, 5, 5, 5, 4, 4,
    3, 3, 3, 3, 2, 2, 2, 2, 1],
   [12, 12, 12, 12, 11, 11, 11, 11, 11, 10, 10, 9, 9, 9, 8, 8, 8, 7, 7, 7, 6, 6, 5, 5, 5, 5, 4, 4,
    3, 3, 3, 3, 2, 2, 2, 2, 1],
   [13, 13, 13, 13, 12, 12, 11, 11, 11, 11, 10, 10, 10, 10, 9, 9, 8, 8, 8, 8, 7, 7, 6, 6, 6, 6, 5,
    5, 4, 4, 4, 4, 3, 3, 2, 2, 2],
   [15, 15, 14, 14, 13, 13, 13, 13, 12, 12, 11, 11, 11, 11, 10, 10, 10, 9, 9, 9, 8, 8, 8, 8, 7, 7,
    6, 6, 6, 6, 5, 5, 5, 4, 4, 4, 4]]

def minqp444_10b : List (List Nat) :=
  [[0, 0, 0, 0, 0, 0, 0, 0, 0, 0, 0, 0, 0, 0, 0, 0, 0, 0, 0, 0, 0, 0, 0, 0, 0, 0, 0, 0, 0, 0, 0,
    0, 0, 0, 0, 0, 0, 0, 0, 0, 0, 0, 0, 0, 0, 0, 0, 0, 0],
   [4, 4, 4, 4, 4, 4, 4, 4, 4, 4, 3, 3, 2, 2, 2, 2, 2, 2, 2, 2, 2, 1, 1, 1, 1, 1, 1, 1, 1, 1, 1,
    1, 0, 0, 0, 0, 0, 0, 0, 0, 0, 0, 0, 0, 0, 0, 0, 0, 0],
   [7, 6, 6, 6, 5, 5, 5, 5, 5, 5, 5, 5, 4, 4, 4, 3, 3, 3, 3, 3, 3, 2, 2, 2, 2, 2, 1, 1, 1, 1, 1,
    1, 1, 1, 1, 0, 0, 0, 0, 0, 0, 0, 0, 0, 0, 0, 0, 0, 0],
   [7, 7, 6, 6, 5, 5, 5, 5, 5, 5, 5, 5, 4, 4, 4, 4, 4, 4, 4, 4, 4, 3, 3, 3, 3, 3, 2, 2, 2, 2, 2,
    2, 2, 2, 2, 2, 1, 1, 0, 0, 0, 0, 0, 0, 0, 0, 0, 0, 0],
   [9, 8, 8, 7, 7, 7, 7, 7, 7, 7, 7, 7, 6, 6, 5, 5, 5, 5, 4, 4, 4, 4, 3, 3, 3, 3, 3, 3, 2, 2, 2,
    2, 2, 2, 2, 2, 1, 1, 1, 1, 0, 0, 0, 0, 0, 0, 0, 0, 0],
   [9, 8, 8, 8, 7, 7, 7, 7, 7, 7, 7, 7, 6, 6, 6, 6, 5, 5, 5, 5, 5, 5, 4, 4, 4, 4, 3, 3, 3, 3, 3,
    2, 2, 2, 2, 2, 2, 2, 2, 2, 1, 1, 1, 0, 0, 0, 0, 0, 0],
   [9, 9, 8, 8, 7, 7, 7, 7, 7, 7, 7, 7, 7, 7, 7, 6, 6, 6, 5, 5, 5, 5, 5, 4, 4, 4, 3, 3, 3, 3, 3,
    3, 3, 3, 3, 3, 3, 2, 2, 2, 1, 1, 1, 1, 0, 0, 0, 0, 0],
   [9, 9, 8, 8, 7, 7, 7, 7, 7, 7, 7, 7, 7, 7, 7, 7, 6, 6, 6, 6, 6, 6, 5, 5, 5, 5, 4, 4, 4, 4, 4,
    4, 3, 3, 3, 3, 3, 3, 2, 2, 2, 2, 1, 1, 1, 0, 0, 0, 0],
   [9, 9, 8, 8, 7, 7, 7, 7, 7, 7, 7, 7, 7, 7, 7, 7, 7, 6, 6, 6, 6, 6, 5, 5, 5, 5, 5, 5, 5, 4, 4,
    4, 4, 4, 3, 3, 3, 3, 3, 3, 2, 2, 2, 1, 1, 1, 1, 0, 0],
   [10, 9, 9, 8, 8, 8, 7, 7, 7, 7, 7, 7, 7, 7, 7, 7, 7, 7, 6, 6, 6, 6, 6, 6, 6, 6, 6, 6, 5, 5, 4,
    4, 4, 4, 3, 3, 3, 3, 3, 3, 3, 2, 2, 2, 1, 1, 1, 1, 0],
   [10, 10, 9, 9, 9, 9, 9, 9, 9, 9, 9, 9, 9, 8, 8, 8, 8, 7, 7, 7, 7, 7, 6, 6, 6, 6, 6, 6, 5, 5, 5,
    5, 5, 5, 5, 5, 4, 4, 4, 3, 3, 3, 2, 2, 2, 1, 1, 1, 1],
   [10, 10, 10, 9, 9, 9, 9, 9, 9, 9, 9, 9, 9, 9, 9, 9, 9, 8, 8, 8, 8, 8, 7, 7, 7, 7, 7, 7, 6, 6,
    6, 6, 5, 5, 5, 5, 4, 4, 4, 4, 3, 3, 3, 3, 2, 2, 1, 1, 1],
   [10, 10, 10, 10, 9, 9, 9, 9, 9, 9, 9, 9, 9, 9, 9, 9, 9, 9, 9, 9, 8, 8, 8, 8, 8, 8, 7, 7, 6, 6,
    6, 6, 5, 5, 5, 5, 4, 4, 4, 4, 3, 3, 3, 3, 2, 2, 2, 2, 1],
   [12, 12, 12, 12, 12, 12, 12, 12, 12, 12, 11, 11, 11, 11, 11, 11, 11, 11, 11, 11, 10, 10, 9, 9,
    9, 9, 8, 8, 7, 7, 7, 7, 6, 6, 5, 5, 5, 5, 4, 4, 3, 3, 3, 3, 2, 2, 2, 2, 1],
   [18, 18, 17, 17, 16, 16, 16, 16, 15, 15, 14, 14, 14, 14, 13, 13, 13, 12, 12, 12, 11, 11, 11,
    11, 10, 10, 9, 9, 9, 9, 9, 8, 8, 7, 7, 7, 7, 7, 6, 6, 5, 5, 5, 5, 4, 4, 3, 3, 3]]

def maxqp444_10b : List (List Nat) :=
  [[8, 8, 8, 8, 8, 8, 7, 7, 7, 6, 5, 5, 4, 4, 3, 3, 3, 2, 2, 2, 2, 2, 2, 1, 1, 1, 1, 1, 1, 1, 1,
    1, 1, 1, 1, 1, 1, 0, 0, 0, 0, 0, 0, 0, 0, 0, 0, 0, 0],
   [10, 10, 9, 9, 8, 8, 8, 8, 8, 8, 7, 7, 6, 6, 6, 5, 5, 4, 4, 4, 4, 3, 3, 3, 3, 3, 2, 2, 2, 2, 2,
    2, 1, 1, 1, 1, 1, 1, 1, 0, 0, 0, 0, 0, 0, 0, 0, 0, 0],
   [12, 11, 11, 10, 9, 9, 9, 9, 9, 9, 9, 9, 8, 8, 8, 7, 6, 6, 5, 5, 5, 4, 4, 4, 4, 4, 3, 3, 3, 3,
    3, 3, 2, 2, 2, 1, 1, 1, 1, 1, 1, 0, 0, 0, 0, 0, 0, 0, 0],
   [12, 12, 11, 11, 10, 10, 10, 10, 10, 10, 10, 10, 9, 9, 9, 8, 7, 7, 6, 6, 6, 5, 5, 5, 5, 5, 4,
    4, 3, 3, 3, 3, 3, 3, 3, 3, 2, 2, 1, 1, 1, 1, 1, 0, 0, 0, 0, 0, 0],
   [13, 12, 12, 11, 11, 11, 11, 11, 11, 11, 11, 11, 10, 10, 9, 8, 8, 7, 6, 6, 6, 6, 5, 5, 5, 5, 5,
    5, 4, 4, 4, 3, 3, 3, 3, 3, 2, 2, 2, 2, 1, 1, 1, 1, 0, 0, 0, 0, 0],
   [13, 12, 12, 12, 11, 11, 11, 11, 11, 11, 11, 11, 10, 10, 10, 9, 8, 8, 7, 7, 7, 7, 6, 6, 6, 6,
    5, 5, 5, 5, 4, 3, 3, 3, 3, 3, 3, 3, 3, 3, 2, 2, 2, 1, 1, 1, 1, 0, 0],
   [13, 13, 12, 12, 11, 11, 11, 11, 11, 11, 11, 11, 11, 10, 10, 9, 8, 8, 7, 7, 7, 7, 7, 6, 6, 6,
    5, 5, 5, 5, 4, 4, 4, 4, 4, 4, 4, 3, 3, 3, 2, 2, 2, 2, 1, 1, 1, 1, 1],
   [14, 14, 13, 13, 12, 12, 12, 12, 12, 12, 12, 12, 12, 11, 11, 10, 9, 9, 8, 8, 8, 8, 7, 7, 7, 7,
    6, 6, 6, 5, 5, 5, 4, 4, 4, 4, 4, 4, 3, 3, 3, 3, 2, 2, 2, 1, 1, 1, 1],
   [15, 15, 14, 14, 13, 13, 13, 13, 13, 13, 12, 12, 12, 11, 11, 10, 10, 9, 9, 9, 9, 9, 8, 8, 8, 8,
    7, 7, 6, 5, 5, 5, 5, 5, 4, 4, 4, 4, 4, 4, 3, 3, 3, 2, 2, 2, 2, 1, 1],
   [16, 15, 15, 14, 14, 14, 13, 13, 13, 13, 13, 13, 13, 12, 12, 11, 10, 10, 9, 9, 9, 9, 8, 8, 8,
    8, 7, 7, 6, 6, 5, 5, 5, 5, 4, 4, 4, 4, 4, 4, 4, 3, 3, 3, 2, 2, 2, 2, 1],
   [16, 16, 15, 15, 14, 14, 14, 14, 14, 14, 13, 13, 13, 12, 12, 11, 11, 10, 10, 10, 9, 9, 8, 8, 8,
    8, 7, 7, 6, 6, 6, 6, 6, 6, 6, 6, 5, 5, 5, 4, 4, 4, 3, 3, 3, 2, 2, 2, 2],
   [16, 16, 16, 15, 15, 15, 14, 14, 14, 14, 13, 13, 13, 13, 12, 12, 12, 11, 11, 11, 10, 10, 9, 9,
    9, 9, 8, 8, 7, 7, 7, 7, 6, 6, 6, 6, 5, 5, 5, 5, 4, 4, 4, 4, 3, 3, 2, 2, 2],
   [16, 16, 16, 16, 15, 15, 15, 15, 15, 14, 14, 13, 13, 13, 12, 12, 12, 11, 11, 11, 10, 10, 9, 9,
    9, 9, 8, 8, 7, 7, 7, 7, 6, 6, 6, 6, 5, 5, 5, 5, 4, 4, 4, 4, 3, 3, 3, 3, 2],
   [17, 17, 17, 17, 16, 16, 15, 15, 15, 15, 14, 14, 14, 14, 13, 13, 12, 12, 12, 12, 11, 11, 10,
    10, 10, 10, 9, 9, 8, 8, 8, 8, 7, 7, 6, 6, 6, 6, 5, 5, 4, 4, 4, 4, 3, 3, 3, 3, 2],
   [19, 19, 18, 18, 17, 17, 17, 17, 16, 16, 15, 15, 15, 15, 14, 14, 14, 13, 13, 13, 12, 12, 12,
    12, 11, 11, 10, 10, 10, 10, 10, 9, 9, 8, 8, 8, 8, 8, 7, 7, 6, 6, 6, 6, 5, 5, 4, 4, 4]]

def rcBufThresh : List Nat :=
  [896, 1792, 2688, 3584, 4480, 5376, 6272, 6720, 7168, 7616, 7744, 7872, 8000, 8064]

def ofsUnd6 : List Int := [0, -2, -2, -4, -6, -6, -8, -8, -8, -10, -10, -12, -12, -12, -12]

def ofsUnd8 : List Int := [2, 0, 0, -2, -4, -6, -8, -8, -8, -10, -10, -10, -12, -12, -12]

def ofsUnd12 : List Int := [2, 0, 0, -2, -4, -6, -8, -8, -8, -10, -10, -10, -12, -12, -12]

def ofsUnd15 : List Int := [10, 8, 6, 4, 2, 0, -2, -4, -6, -8, -10, -10, -12, -12, -12]

/-! ## The parameters -/

def bppUnit : Nat := 16

def pixelsPerGroup : Nat := 3

def offsetFractionalBits : Nat := 11

def rcModelSize : Nat := 8192

/-- The difference of two `NvU32`. -/
def sub32 (a b : Nat) : Nat := (a + 2 ^ 32 - b) % 2 ^ 32

/-- `DSC_INPUT_PARAMS`, as an RGB picture on one head fills it. -/
structure InputParams where
  dscVersionMinor : Nat
  bitsPerComponent : Nat
  linebufDepth : Nat
  blockPredEnable : Bool
  bitsPerPixel : Nat
  picHeight : Nat
  picWidth : Nat
  sliceWidth : Nat
  sliceCountMask : Nat
  maxSliceNum : Nat
  maxSliceWidth : Nat
  pixelClkMHz : Nat
  multiTile : Bool
  peakThroughputMps : Nat

/-- `DSC_OUTPUT_PARAMS`, without what an RGB picture leaves at zero. -/
structure OutputParams where
  input : InputParams
  sliceNum : Nat := 0
  sliceHeight : Nat := 0
  chunkSize : Nat := 0
  groupsPerLine : Nat := 0
  initialXmitDelay : Nat := 0
  initialDecDelay : Nat := 0
  initialScaleValue : Nat := 0
  scaleIncrementInterval : Nat := 0
  scaleDecrementInterval : Nat := 0
  firstLineBpgOffset : Nat := 0
  nflBpgOffset : Nat := 0
  sliceBpgOffset : Nat := 0
  initialOffset : Nat := 0
  finalOffset : Nat := 0
  numExtraMuxBits : Nat := 0

/-- `RANGE_CHECK`, which compares as `NvS32`. -/
def rangeCheck (a low high : Nat) : Option Unit := guard (low ≤ a ∧ a ≤ high)

/-- `DSC_PpsCalcBase`. -/
def ppsCalcBase (input : InputParams) : Option OutputParams := do
  guard (input.dscVersionMinor = 1 ∨ input.dscVersionMinor = 2)
  guard (input.bitsPerComponent = 8 ∨ input.bitsPerComponent = 10)
  rangeCheck input.linebufDepth 8 13
  if input.multiTile then
    rangeCheck input.picWidth 64 16384
    rangeCheck input.picHeight 8 16384
  else
    rangeCheck input.picHeight 8 8192
    rangeCheck input.picWidth 32 5120
  some { input }

/-- The slice counts with a bit of the mask, in the order of their bits; the third bit is not used. -/
def sliceCounts : List (Nat × Nat) :=
  [(1, 0x1), (2, 0x2), (4, 0x8), (6, 0x10), (8, 0x20), (10, 0x40), (12, 0x80), (16, 0x100), (20, 0x200),
    (24, 0x400)]

/-- `DSC_SliceCountMaskforSliceNum`. -/
def sliceCountMaskforSliceNum (sliceNum : Nat) : Nat :=
  ((sliceCounts.find? fun c => c.1 = sliceNum).map Prod.snd).getD 0

/-- `DSC_GetSliceCountMask`, with the first count from the greatest on. -/
def getSliceCountMask (maxSliceNum : Nat) : Nat :=
  if maxSliceNum = 0 then 0
  else
    let below := sliceCounts.takeWhile fun c => c.1 < maxSliceNum
    let next := (sliceCounts.drop below.length).take 1
    ((below ++ next).map Prod.snd).foldl (· ||| ·) 0

/-- `DSC_PpsCalcSliceParams`, for a slice width that is not zero and no slice count. -/
def ppsCalcSliceParams (o : OutputParams) : Option OutputParams := do
  let input := o.input
  let commonSliceCountMask := getSliceCountMask input.maxSliceNum &&& input.sliceCountMask
  guard (commonSliceCountMask ≠ 0)
  guard (input.peakThroughputMps ≠ 0)
  guard (input.sliceWidth ≤ input.maxSliceWidth)
  let sliceNum := (input.picWidth + input.sliceWidth - 1) / input.sliceWidth
  guard (sliceCountMaskforSliceNum sliceNum &&& commonSliceCountMask ≠ 0)
  guard (input.pixelClkMHz / sliceNum ≤ input.peakThroughputMps)
  guard (32 ≤ input.sliceWidth)
  let groupsPerLine := (input.sliceWidth + pixelsPerGroup - 1) / pixelsPerGroup
  let chunkSize := (input.sliceWidth * input.bitsPerPixel + 8 * bppUnit - 1) / (8 * bppUnit)
  guard ((chunkSize + 3) / 4 * sliceNum ≤ input.picWidth)
  some { o with sliceNum, groupsPerLine, chunkSize }

/-- `DSC_PpsCalcRcInitValue`. -/
def ppsCalcRcInitValue (o : OutputParams) : Option OutputParams := do
  let bitsPerPixel := o.input.bitsPerPixel
  let initialOffset :=
    if bitsPerPixel ≥ 12 * bppUnit then 2048
    else if bitsPerPixel ≥ 10 * bppUnit then
      5632 - ((bitsPerPixel - 10 * bppUnit) * 1792 + bppUnit / 2) / bppUnit
    else if bitsPerPixel ≥ 8 * bppUnit then
      6144 - ((bitsPerPixel - 8 * bppUnit) * 256 + bppUnit / 2) / bppUnit
    else 6144
  rangeCheck initialOffset 0 rcModelSize
  let scale := 8 * rcModelSize / (rcModelSize - initialOffset)
  let initialScaleValue := if o.groupsPerLine < scale - 8 then o.groupsPerLine + 8 else scale
  rangeCheck initialScaleValue 0 63
  let initialXmitDelay := (4096 * bppUnit + bitsPerPixel / 2) / bitsPerPixel
  rangeCheck initialXmitDelay 0 1023
  some { o with initialOffset, initialScaleValue, initialXmitDelay }

/-- `DSC_PpsCalcExtraBits`. -/
def ppsCalcExtraBits (o : OutputParams) : OutputParams :=
  let muxWordSize := 48
  let extraBits := 3 * (muxWordSize + (4 * o.input.bitsPerComponent + 4) - 2)
  let sliceBits := sub32 (8 * o.chunkSize * o.sliceHeight) extraBits % muxWordSize
  { o with numExtraMuxBits :=
      if sliceBits ≠ 0 then extraBits - min extraBits (muxWordSize - sliceBits) else extraBits }

/-- `DSC_PpsCalcBpg`. -/
def ppsCalcBpg (o : OutputParams) : Option OutputParams := do
  let bitsPerPixel := o.input.bitsPerPixel
  let uncompressedBpgRate := (3 * o.input.bitsPerComponent + 2) * pixelsPerGroup
  let ubBpgOfs := sub32 (uncompressedBpgRate * bppUnit) (pixelsPerGroup * bitsPerPixel) / bppUnit
  let firstLineBpgOffset := min ubBpgOfs
    (if o.sliceHeight ≥ 8 then 12 + min 34 (o.sliceHeight - 8) * 9 / 100 else 2 * (o.sliceHeight - 1))
  rangeCheck firstLineBpgOffset 0 31
  let nflBpgOffset :=
    if o.sliceHeight > 1 then
      (firstLineBpgOffset <<< offsetFractionalBits + o.sliceHeight - 2) / (o.sliceHeight - 1)
    else 0
  rangeCheck nflBpgOffset 0 65535
  let groupsTotal := o.groupsPerLine * o.sliceHeight
  let sliceBpgOffset :=
    ((rcModelSize - o.initialOffset + o.numExtraMuxBits) <<< offsetFractionalBits + groupsTotal - 1) /
      groupsTotal
  rangeCheck sliceBpgOffset 0 65535
  guard (((1 + 5 * pixelsPerGroup) * bppUnit) <<< offsetFractionalBits ≤
    sub32 ((pixelsPerGroup * bitsPerPixel) <<< offsetFractionalBits)
      ((sliceBpgOffset + nflBpgOffset) * bppUnit))
  let rbsMin := rcModelSize - o.initialOffset + (o.initialXmitDelay * bitsPerPixel + bppUnit - 1) / bppUnit +
    o.groupsPerLine * firstLineBpgOffset
  let hrdDelay := (rbsMin * bppUnit + bitsPerPixel - 1) / bitsPerPixel
  let initialDecDelay := hrdDelay - o.initialXmitDelay
  rangeCheck initialDecDelay 0 65535
  some { o with firstLineBpgOffset, nflBpgOffset, sliceBpgOffset, initialDecDelay }

/-- `DSC_PpsCalcScaleInterval`. -/
def ppsCalcScaleInterval (o : OutputParams) : Option OutputParams := do
  let finalOffset := rcModelSize - (o.initialXmitDelay * o.input.bitsPerPixel + 8) / bppUnit +
    o.numExtraMuxBits
  rangeCheck finalOffset 0 (rcModelSize - 1)
  let finalScale := 8 * rcModelSize / (rcModelSize - finalOffset)
  rangeCheck finalScale 0 63
  let scaleIncrementInterval :=
    if finalScale > 9 then
      finalOffset <<< offsetFractionalBits / ((finalScale - 9) * (o.nflBpgOffset + o.sliceBpgOffset))
    else 0
  rangeCheck scaleIncrementInterval 0 65535
  let scaleDecrementInterval :=
    if o.initialScaleValue > 8 then o.groupsPerLine / (o.initialScaleValue - 8) else 4095
  rangeCheck scaleDecrementInterval 1 4095
  some { o with finalOffset, scaleIncrementInterval, scaleDecrementInterval }

/-- `DSC_PpsCheckSliceHeight`. -/
def ppsCheckSliceHeight (o : OutputParams) : Option OutputParams := do
  let o ← ppsCalcBpg (ppsCalcExtraBits o)
  ppsCalcScaleInterval o

/-- `Dsc_PpsCalcHeight`: the greatest of sixteen parts of the picture that passes. -/
def ppsCalcHeight (o : OutputParams) : Option OutputParams :=
  (List.range' 1 16).findSome? fun i =>
    let sliceHeight := o.input.picHeight / i
    if o.input.picHeight ≠ sliceHeight * i then none else ppsCheckSliceHeight { o with sliceHeight }

/-- `DSC_PpsCalc`; the parameters of the rate control follow from the depth alone. -/
def ppsCalc (input : InputParams) : Option OutputParams := do
  let o ← ppsCalcBase input
  let o ← ppsCalcSliceParams o
  let o ← ppsCalcRcInitValue o
  ppsCalcHeight o

/-! ## The set -/

def msb (a : Nat) : Nat := a >>> 8 &&& 0xFF

def lsb (a : Nat) : Nat := a &&& 0xFF

/-- `range_bpg_offset[i]` of `DSC_PpsCalcRcParam`. -/
def rangeBpgOffset (bitsPerPixel i : Nat) : Int :=
  if bitsPerPixel ≤ 6 * bppUnit then ofsUnd6.getD i 0
  else if bitsPerPixel ≤ 8 * bppUnit then
    ofsUnd6.getD i 0 + ((bitsPerPixel - 6 * bppUnit : Nat) * (ofsUnd8.getD i 0 - ofsUnd6.getD i 0) +
      bppUnit) / (2 * bppUnit)
  else if bitsPerPixel ≤ 12 * bppUnit then ofsUnd8.getD i 0
  else if bitsPerPixel ≤ 15 * bppUnit then
    ofsUnd12.getD i 0 + ((bitsPerPixel - 12 * bppUnit : Nat) * (ofsUnd15.getD i 0 - ofsUnd12.getD i 0) +
      3 * bppUnit / 2) / (3 * bppUnit)
  else ofsUnd15.getD i 0

/-- The two bytes of a range of the rate control. -/
def rangeParameters (bpc bitsPerPixel i : Nat) : List Nat :=
  let idx := 2 * (bitsPerPixel - 6 * bppUnit) / bppUnit
  let minQp := ((if bpc = 8 then minqp444_8b else minqp444_10b).getD i []).getD idx 0
  let maxQp := ((if bpc = 8 then maxqp444_8b else maxqp444_10b).getD i []).getD idx 0
  let offset := (rangeBpgOffset bitsPerPixel i % 64).toNat
  let x := (minQp &&& 0x1F) <<< 11 ||| (maxQp &&& 0x1F) <<< 6 ||| offset
  [msb x, lsb x]

/-- `DSC_PpsConstruct`. -/
def ppsConstruct (o : OutputParams) : List Byte :=
  let input := o.input
  let both (a : Nat) : List Nat := [msb a, lsb a]
  let qpBpcModifier := (input.bitsPerComponent - 8) * 2
  let pps :=
    [1 <<< 4 ||| input.dscVersionMinor &&& 0xF, 0, 0,
      input.bitsPerComponent <<< 4 ||| input.linebufDepth &&& 0xF,
      input.blockPredEnable.toNat <<< 5 ||| 1 <<< 4 ||| msb (input.bitsPerPixel &&& 0x3FF),
      lsb input.bitsPerPixel] ++
    both input.picHeight ++ both input.picWidth ++ both o.sliceHeight ++ both input.sliceWidth ++
    both o.chunkSize ++ [msb (o.initialXmitDelay &&& 0x3FF), lsb o.initialXmitDelay] ++
    both o.initialDecDelay ++ [0, o.initialScaleValue &&& 0x3F] ++ both o.scaleIncrementInterval ++
    [msb (o.scaleDecrementInterval &&& 0xFFF), lsb o.scaleDecrementInterval] ++
    [0, o.firstLineBpgOffset &&& 0x1F] ++ both o.nflBpgOffset ++ both o.sliceBpgOffset ++
    both o.initialOffset ++ both o.finalOffset ++
    [3 + qpBpcModifier &&& 0x1F, 12 + qpBpcModifier &&& 0x1F] ++ both rcModelSize ++
    [6, 11 + qpBpcModifier &&& 0x1F, 11 + qpBpcModifier &&& 0x1F, 3 <<< 4 ||| 3] ++
    rcBufThresh.map (fun threshold => (threshold &&& 0xFF <<< 6) >>> 6) ++
    (List.range 15).flatMap (rangeParameters input.bitsPerComponent input.bitsPerPixel) ++
    List.replicate 40 0
  pps.map (BitVec.ofNat 8)

/-! ## `dsc.generate` -/

/-- `links.Clock.ceilHz`. -/
def ceilHz (clock : Clock) : Nat := (clock.numerator + clock.denominator - 1) / clock.denominator

/-- `links.Demand.fits`: the bits of a second fit the payload. -/
def fits (clock : Clock) (bppX16 payloadBps : Nat) : Prop :=
  clock.numerator * bppX16 ≤ payloadBps * 16 * clock.denominator

instance (clock : Clock) (bppX16 payloadBps : Nat) : Decidable (fits clock bppX16 payloadBps) :=
  inferInstanceAs (Decidable (_ ≤ _))

def powerStep (value : Nat) : Prop := value ∈ [1, 2, 4, 8, 16]

instance (value : Nat) : Decidable (powerStep value) := inferInstanceAs (Decidable (_ ∈ _))

/-- The mask of the generator for a receiver's slice counts. -/
def sliceMaskOf (mask : Nat) : Nat :=
  (sliceCounts.filter fun c => mask &&& 1 <<< c.1 ≠ 0).foldl (fun bits c => bits ||| c.2) 0

/-- The greatest slice count of a mask of the generator. -/
def maxNumHztSlices (mask : Nat) : Nat :=
  (sliceCounts.filter fun c => mask &&& c.2 ≠ 0).foldl (fun _ c => c.1) 0

/-- The throughput of a slice in MHz that has a code. -/
def throughput (mhz : Nat) : Option Nat :=
  if mhz = 170 ∨ mhz = 340 ∨ (400 ≤ mhz ∧ mhz ≤ 1000 ∧ mhz % 50 = 0) then some mhz else none

/-- `r4os_dsc_generate` and `DSC_GeneratePPS`, for HDMI. -/
def dscGenerate (g : Generate) (pclk peakThroughputMps : Nat) : Option OutputParams := do
  let mask := sliceMaskOf g.sink.sliceMask
  let sinkSlices := maxNumHztSlices mask
  guard (sinkSlices ≠ 0)
  guard (g.forcedSliceWidth ≤ g.sink.maxSliceWidth ∧ g.forcedSliceWidth ≤ g.width)
  guard (2 ≤ g.sink.versionMinor)
  guard (g.sink.maxBppX16 ≤ 1024)
  let multiTile := decide (g.source.maxSlices > 4)
  let bitsPerPixel := g.forcedBppX16 / g.sink.bppIncrementX16 * g.sink.bppIncrementX16
  guard ¬ (multiTile ∧ bitsPerPixel > 256)
  guard ¬ (g.sink.maxBppX16 ≠ 0 ∧ bitsPerPixel > g.sink.maxBppX16)
  rangeCheck bitsPerPixel (8 * bppUnit) (32 * bppUnit)
  ppsCalc {
    dscVersionMinor := 2
    bitsPerComponent := g.bpc
    linebufDepth := min g.sink.lineBufferBits g.source.lineBufferBits
    blockPredEnable := g.sink.blockPrediction
    bitsPerPixel
    picHeight := g.height
    picWidth := g.width
    sliceWidth := g.forcedSliceWidth
    sliceCountMask := mask
    maxSliceNum := min sinkSlices g.source.maxSlices
    maxSliceWidth := min g.sink.maxSliceWidth (g.source.lineBufferPixels / 1024 * 1024)
    pixelClkMHz := pclk / 1000000
    multiTile
    peakThroughputMps }

def be (bytes : List Byte) (offset : Nat) : Nat :=
  (bytes.getD offset 0).toNat * 256 + (bytes.getD (offset + 1) 0).toNat

/-- The plan of a set. -/
def planOf (g : Generate) (bytes : List Byte) (bppX16 : Nat) : Params where
  pps := (List.range 32).map fun i => word bytes (4 * i)
  bppX16
  slices := (g.width + be bytes 12 - 1) / be bytes 12
  sliceWidth := be bytes 12
  sliceHeight := be bytes 10
  chunkBytes := be bytes 14
  rcBufferBytes := (be bytes 38 + 7) / 8

/-- The set says what was asked for. -/
def stated (g : Generate) (bytes : List Byte) (plan : Params) : Prop :=
  at_ bytes 0 = 0x10 ||| g.sink.versionMinor ∧ at_ bytes 3 >>> 4 = g.bpc ∧
    at_ bytes 4 &&& 0x1c = 0x10 ∧ at_ bytes 88 = 0 ∧
    (at_ bytes 4 &&& 3) <<< 8 ||| at_ bytes 5 = plan.bppX16 ∧ be bytes 6 = g.height ∧
    be bytes 8 = g.width ∧ (at_ bytes 4 &&& 0x20 ≠ 0 → g.sink.blockPrediction = true)

instance (g : Generate) (bytes : List Byte) (plan : Params) : Decidable (stated g bytes plan) :=
  inferInstanceAs (Decidable (_ ∧ _))

/-- The plan is one for the source and the sink. -/
def suited (g : Generate) (plan : Params) : Prop :=
  (plan.sliceWidth ≠ 0 ∧ plan.sliceWidth ≤ g.sink.maxSliceWidth ∧
    plan.sliceWidth ≤ g.source.lineBufferPixels ∧ 8 ≤ plan.sliceHeight ∧
    g.height % plan.sliceHeight = 0 ∧ plan.chunkBytes ≠ 0 ∧ plan.rcBufferBytes ≠ 0 ∧
    plan.rcBufferBytes ≤ g.source.rateBufferBytes ∧ plan.sliceWidth = g.forcedSliceWidth) ∧
  plan.slices ≤ 24 ∧ plan.slices ≤ g.source.maxSlices ∧ g.sink.sliceMask &&& 1 <<< plan.slices ≠ 0 ∧
    g.clock.numerator ≤ plan.slices * g.sink.sliceClockMhz * 1000000 * g.clock.denominator ∧
    plan.bppX16 % max g.sink.bppIncrementX16 g.source.bppIncrementX16 = 0 ∧
    (g.sink.maxBppX16 ≠ 0 → plan.bppX16 ≤ g.sink.maxBppX16)

instance (g : Generate) (plan : Params) : Decidable (suited g plan) :=
  inferInstanceAs (Decidable (_ ∧ _))

/-- The payload holds the chunks of every line. -/
def chunksFit (g : Generate) (plan : Params) : Prop :=
  plan.chunkBytes * plan.slices * 8 * g.clock.numerator < g.payloadBps * g.width * g.clock.denominator

instance (g : Generate) (plan : Params) : Decidable (chunksFit g plan) :=
  inferInstanceAs (Decidable (_ < _))

/-- The words of a request are in range. -/
def Regular (g : Generate) : Prop :=
  powerStep g.source.bppIncrementX16 ∧ powerStep g.sink.bppIncrementX16 ∧
    g.source.lineBufferPixels ≠ 0 ∧ g.source.lineBufferPixels ≤ 65536 ∧
    g.source.lineBufferPixels % 1024 = 0 ∧ g.source.maxSlices ≠ 0 ∧ g.source.maxSlices ≤ 24 ∧
    8 ≤ g.source.lineBufferBits ∧ g.source.lineBufferBits ≤ 16 ∧ 8 ≤ g.sink.lineBufferBits ∧
    g.sink.lineBufferBits ≤ 16 ∧ g.sink.maxSliceWidth ≠ 0 ∧ g.sink.sliceMask ≠ 0 ∧ g.width ≠ 0 ∧
    g.width ≤ 65535 ∧ 8 ≤ g.height ∧ g.height ≤ 65535 ∧ g.hblank ≤ 65535 ∧ g.clock.numerator ≠ 0 ∧
    g.clock.denominator ≠ 0 ∧ 128 ≤ g.forcedBppX16 ∧ g.forcedBppX16 < g.bpc * 48 ∧
    g.forcedBppX16 % max g.source.bppIncrementX16 g.sink.bppIncrementX16 = 0 ∧
    g.forcedSliceWidth ≠ 0 ∧ g.forcedSliceWidth ≤ g.sink.maxSliceWidth ∧
    ceilHz g.clock ≤ 4000000000 ∧ g.payloadBps ≠ 0 ∧ g.payloadBps ≤ 64000000000

instance (g : Generate) : Decidable (Regular g) := inferInstanceAs (Decidable (_ ∧ _))

/-- `dsc.generate`, for HDMI. -/
def generate (g : Generate) : Except Error Params :=
  if g.source.advertised = false ∨ g.source.usable = false ∨ g.sink.advertised = false ∨
      g.sink.usable = false ∨ g.source.formats &&& 1 = 0 ∨ g.sink.formats &&& 1 = 0 ∨
      g.sink.versionMajor ≠ 1 ∨ (g.sink.versionMinor ≠ 1 ∧ g.sink.versionMinor ≠ 2) ∨
      (g.bpc ≠ 8 ∧ g.bpc ≠ 10) ∨ g.sink.bpcMask &&& 1 <<< ((g.bpc - 8) / 2) = 0 then .error .Unsupported
  else if ¬ Regular g then .error .Parameter
  else if ¬ fits g.clock 128 g.payloadBps then .error .Bandwidth
  else
    let output := do
      let peakThroughputMps ← throughput g.sink.sliceClockMhz
      dscGenerate g (ceilHz g.clock) peakThroughputMps
    match output with
    | none => .error .Unsupported
    | some o =>
      let bytes := ppsConstruct o
      let plan := planOf g bytes o.input.bitsPerPixel
      if plan.bppX16 ≠ g.forcedBppX16 ∨ plan.bppX16 < 128 ∨ plan.bppX16 ≥ g.bpc * 3 * 16 ∨
          plan.bppX16 > 1023 ∨ ¬ stated g bytes plan ∨ ¬ suited g plan then .error .Pps
      else if ¬ fits g.clock plan.bppX16 g.payloadBps ∨ ¬ chunksFit g plan then .error .Bandwidth
      else .ok plan

variable {g : Generate} {plan : Params}

/-- A plan is the one of a set that states the request, suits the source and the sink, and has its
chunks in the payload. -/
theorem generate_ok (h : generate g = .ok plan) : ∃ bytes bppX16, plan = planOf g bytes bppX16 ∧
    bppX16 = g.forcedBppX16 ∧ stated g bytes plan ∧ suited g plan ∧ chunksFit g plan := by
  unfold generate at h
  split at h
  · cases h
  split at h
  · cases h
  split at h
  · cases h
  dsimp only at h
  split at h
  · cases h
  split at h
  · cases h
  rename_i hplan
  split at h
  · cases h
  rename_i hroom
  simp only [not_or, not_not] at hplan hroom
  obtain ⟨hbpp, -, -, -, hstated, hsuited⟩ := hplan
  cases h
  exact ⟨_, _, rfl, hbpp, hstated, hsuited, hroom.2⟩

/-- The slices of a plan cover the picture in slices of the forced width. -/
theorem generate_slices (h : generate g = .ok plan) :
    plan.slices = (g.width + g.forcedSliceWidth - 1) / g.forcedSliceWidth := by
  obtain ⟨bytes, bppX16, rfl, -, -, hsuited, -⟩ := generate_ok h
  obtain ⟨⟨-, -, -, -, -, -, -, -, hwidth⟩, -⟩ := hsuited
  rw [← hwidth]
  rfl

/-- The words of a plan are the set, and it names the forced depth. -/
theorem generate_pps (h : generate g = .ok plan) :
    plan.pps.length = 32 ∧ plan.bppX16 = g.forcedBppX16 := by
  obtain ⟨bytes, bppX16, rfl, rfl, -⟩ := generate_ok h
  refine ⟨?_, rfl⟩
  unfold planOf
  rw [List.length_map, List.length_range]

end Pps
end Hdmi
end NvidiaGsp
