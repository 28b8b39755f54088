/-
This file has the error numbers of the C library. A function of the kernel returns the negative of
one of them.
-/

import Mathlib.Tactic

namespace Miosix

/-- Operation not permitted. -/
def EPERM : Int := 1

/-- No such file or directory. -/
def ENOENT : Int := 2

/-- Input or output error. -/
def EIO : Int := 5

/-- Argument list too long. -/
def E2BIG : Int := 7

/-- Bad file descriptor. -/
def EBADF : Int := 9

/-- No child process. -/
def ECHILD : Int := 10

/-- Out of memory. -/
def ENOMEM : Int := 12

/-- Permission denied. -/
def EACCES : Int := 13

/-- Bad address. -/
def EFAULT : Int := 14

/-- Device or resource busy. -/
def EBUSY : Int := 16

/-- Cross-device link. -/
def EXDEV : Int := 18

/-- Not a directory. -/
def ENOTDIR : Int := 20

/-- Invalid argument. -/
def EINVAL : Int := 22

/-- Too many open files. -/
def EMFILE : Int := 24

/-- Too many links. -/
def EMLINK : Int := 31

/-- Directory not empty. -/
def ENOTEMPTY : Int := 90

/-- File name too long. -/
def ENAMETOOLONG : Int := 91

/-- Too many symbolic links. -/
def ELOOP : Int := 92

/-- Value too large. -/
def EOVERFLOW : Int := 139

end Miosix
