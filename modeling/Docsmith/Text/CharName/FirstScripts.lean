/-
Character names: the scripts below U+1000, in the form that `Text.CharName` reads.
-/
import Docsmith.Text.Packed

namespace Docsmith.Text

def firstScriptsNames : Packed := ⟨48189, "
 (v7$ro8HuTnj%.#Vhhum6Q$6d2[0Xf~Bk=GHF+KY2@^uyFB.0B<~ez!Ajwsu>D*0!2Ucd=<cWN8!a<s,t9&ZHdBS!%c|*Esipa0
 [sLG,p~oZ&_*O>b4c<h,0euSA$B41.s2v*Z!$zdq64AL4p2#,?]3:D@?.6$<|>b~P[+D?t,!*0$e0W^O$6?rUEH]^aBrMXUbe=I
 5#%wJqi$wDh69nl0hM5Z3(KY@S?t!lZZ0a9JQrxzhe)o?yB?)+dyOGh?>>.<U<D3g].stA,e(r2Ik&mX0=!Z~yzp^8>TkKUZYuF
 jQ,@0V+@v@F9H8RJ_k>Q>U9(G7q>NpSFPhv@CgjNCoRd+ORc.Vc(6+CUc36!4Y?,t.Mvzef~zVkpj1#s,[CD|T0+l_PevSYPera
 )99#U|qLZ9c.C^4[kZZ|hbxu7;qn6]?67|vQzfJC8L72npg*FqmB@aI@C%7uIy=,A=u$H*neFq*9_Q8|Sil8v*ZLSD7ov@(id!7
 ry_hudDQh)$1oorwa2lqdl~j5<yioS|A#hHUJ~<CP93iaHx|O,z@L(F@ReB51Tf%=N9R:[tC=<y%y|ypu+$70$rXrB5*A(Yn[|y
 ^^Q<3UQPhj)fEoXGXpDQ0RTxF[W6ZH9%(WK[^61uPJ06U:<4]v0mvVrP+)28o3ico_WYb[NFIEC9e(*qi=MT79~]2.PH2C!O8=*
 WMY@Rw~(4KlirL:xF^eu&tzHs3:2*^QZ&e,rQ3lxq+xx39W*LRwGeJw=c4U*B:hHCb,kg,fndn,i[Pxpo)%^qb#nC0pTTILE*Lq
 r2~h1mdufS5:7b9y1zuPelWwM*ByC|RI4wd:7g@ghyiVI|djx~f?9%1Lc2,fLa.&SSKqF5Q[gYUe*D$J!Fin+#a*t2]S3K(#>Bh
 K<;d,6S!L0Qk>oYiSc2khDl>Ho9[]ox;ouwAxh[jB2+X2ml>JA,dw,HukGNpPqZS%~0y%wDG&Z!D5U~wR;!lXN2u]|p!Y908kU5
 VA@iSa[Nmy#+bKP,>vR;!T7~Y4~4=$2#oY^BE&kk=ovgPy[B<Vnj9r&Hy(STewS~zKx%=WVFM$ziKA)$xjdn<tU7=c)zy@c4(V~
 _7Rh&%ct[IOL9LYV$W77Bf3!p1jUwvR?;6Q#%c|EFN,_o;QI@4~Ng^m^42nnBE&>b&?kwBTX%F(yVAZh1E%Aw:WRm~udDJ2u%Qf
 =UYc8?O)yH,L8R|Lk=>!]ol]mEh30FvE02CTQxnb8q,%a5Gt7w76hL!GRA<J:xb+RG7Rt^RM>NFFWQ2;Xir1&FA.,Cg4WjW6d|B
 %_k~O(4iN?|Uv;<)Jee*Kic2pYi|%^3;7l~R]#Tut*I%s[<1!H~jCB9]JdQdmm1hryBGN^O>k62DSMn;E2,5:c7;r2<Ms=tCqP)
 (.Y|NYr^=qA2,ety>6!Rc6ebajcB_iGiU5dF9vEfJmDf4#RNOCo4Vh9vMv<;AhUT;5o]Jf%~du?#TDnO!)XJbQ6U4?c(go*(dl2
 4Hu^9[4cXrdht|U;xR9j+D^4AgI*0P%68m!#<R_XlKivi$jAGAVv)qbFu;&xOX5w_,V?s(+4W>_U?e&c^=W#<yx.FAU[sJ,;Taf
 =j&:t~7gV$&:>JbRxI+rr$,,6&IY6#[3GA1wUX34spL6p?nE(fqW$lPsLr3Cp~XO:k07qYqPED29.P^LM0zd8GF>rEF(V*5p^f!
 NIU8jk;eLs;7b9=,5>X$E^yvyI~P6l23w|<MM9#!m(28h@Xtre;+0F&cFoL~();QjqR7F|HQK9HnbuB?*5_K%|G^cUj$76E86g6
 x[3!fvQe0F>J9i#F7|&Tu@9pn+uy,izU~mR*iI1(nn+l8,vM:(+.|7sAmcv[mm%hP8vPudFE(UrDeiC;Q<z#SBt8&yr%ofqs,VP
 B+j!nIe=bl>%[QZ!,qVxExvDXz+*vPJ#yna~c)pLP[6zY(w>xZjz[hPNilnhPZu%s~G||<M.*~~TJfHc$08X>KY;O6A:o^z[;J8
 _7;r_hW=qjX@DkIO^.3tY[_,:V#b6V8gkw5w7[GA:t7j;B%)Lt3nf6o!cqR*hCA%>g#2V%,9K&|!2D$#%||h&>AHn|)7)n.&&W[
 RCj0YBUBt73<Kwf8B4@D?6uuX%#m8[y*ipP6VAu>q!Bjp3k,^AS!yjotXKR7;zg2b~n<]C4N_dx@+bL2hpn6G@X=(_N03(>CjM4
 qdwt,,C)phNu+(2|6|h3qja(~0=*H!&@)*~v_Bmi&po]]I8akyE4q6a]m|H_3<T]lQF$Y~liDrCePNNC]y,FbxO9S*v^*rDC)j*
 KYZSZ;(^,f)C:UH]JGHp~qv<gA1Jt$wwgzmS?|MY|!OCU7mNi7qcxCk6y4NHx!9?m6+?stIjYG~]7I@]d!JuJ,hP,mjT:Dudt1s
 *r3.<EyCcz+>@7$Xc52IuAMgfd?=$Fg5QK?KN0OD!GnFUkLi?L21,iM.J|]bMro]g4ag?OG+Q0i]c(0)57Wz>xAib!mO*Pt_.6C
 )l1:<4:je|;,,P([<Oknq(_ZmD4pWZrV%<^=_![ojw5)Pywa4#Xo!<k1]3P|;hnTsdTNCn<(!%&o$ok(k49PfSweYYw3[E(:Boe
 SG>D:b(e7)PLW@*bu9u^^CU0)!:i(5I~sPp.y|gkVOwJn4Mn8i_db];JZ~N9p:7RPR!IP<^A*;@)A,on&GIy4nu#j?k$3;8cx8Q
 L<.$Q@SBH.mz3Q;n_$mnHvgMzZ^vWBN)=6xXt;hXI+3p+HqzVt_t_YQKAB;[y[SNUB;$vB[lz;uSdeP#Cc<~D?MoREe#!2&<iCo
 ExQ)7XH2PTw47Dv_XMyXh1O6(bHT2Z|<JQ[,ok<D!ROL&6V8lcWD_(V1GuJQr:CiSIKnRt%#*Z1AD4WRgCMBcxr;qc9HKv@@=Uc
 !:j=qtcU+os2Hu*rmk<nqVdFJd4SFn;QohNW#_hg]uhxvcfoNw0<pOamfzF$WIA&wRinFm^q6$xeKXTN[^]T*DurYC>%Ge|m^eu
 =EmeV;?l)O4OL.4Z1EuO>)~ilyftlFJqLemrE8kl,O6L2C!HqKjeXEhKw!SwuH%vq92S#HsFZM22D!3%q]_oI__fl#I(gS&6MtY
 @vJz;Fx6<l?_J&<MR|&maEaMVpgVkek@|%xK6i2gkK||Sqecz%C%=rh)<qg1qebO(Qu^C=RgrX#tPv@$ra1U$q6RC4K9~y0t&yE
 3>X7i,,H7va*bs=~g%7!_yq;pz)j[Trg1$||Li]IrrhX7YSf>kg<@hrE>;#Ctnj#sO$GV$(8c25gvIE!h(f1fR>0_;8;V0EZqU[
 u0CD3o&j4W7!ZI~j$3&JajU~0|R4mUCp7TNIkX6LLYPXL%LH|BC;Pm#wG)?rvW&>!+#5K9^:&yst(lfA?C1~,G|2s]0$kS]4^Y]
 xo!wcdgd9i2w7ygHB[_Hca(&O9??,2&.g#PcKH~s+WzCVyX#MO?cpY(^$@RtC6r4ua#EH%[j=E^yfQ~6>7q4L.QGPPtqM8mUMZs
 p+CB<]@r]hIlJaBqnmfIRT<rQym:(Y8[jvn5Blj4lvyl*=(HV0iAp=nTpdfntdy6ZuH+>0,HMA:r]0Op5NHvc99tl~j[R0PQhvz
 blvxFV>%kOn_@+jW1u.92%!~=6&D4T@$!qS3Exb<W6Pe$s3i%vesGaJUQo6]UmCp5&pob|5?|):Ek0Q~C)ktM3l!5a52Cw,]qcd
 896I:t2Ew(c<Sn,ugL;wh1@:3xB<ieMU9hgr&gb~YmJ3v%G@d!b4_0kDYbbt_J|~ti3@)$3^7o!:A??70z6,%pjx_FH*886N!E7
 RZxkYI_+C,$nW~K?KUu=BQy@Hq[rF)LRhnka;%Rb.qAH2!kOC;Dh0vkJ16YK3J_2o*6aPP]JLY8$_][v^diN:V_2)E:QS&b]&7T
 dP?Po,m%8mO<R~ZBXS?cvwEX|vByZ1;g<iq6;GlT|uh2(Y2o@T;Xm_Is?b8AGft?.KkFqdf?ofIn6ZjGfzjq*ai5|H)KI@nEPJ4
 !P;WLGFc;i1+oj#.EC1x(*3g9CuSZX#aTJAp=)<;;9V+#7<L[RYk9S^#pyhZCK[A2s6Pci8Vm|bWkby_;Z?,;^?Zhm+X>am]7us
 [UM9v?2K)8ZFmWx&YOc,11vR:A!>)QYsS>cTf6dgofS]gh1dQ2^w$.P5yHRs(Ulg:;Sy>RfDJ,?_tJ8B^mGt>mj~WQ.rjT;5~^e
 9Au8e.m^S?e^;uvedu0g&Z_4O,c?g_FUgQup,ax]$PeV07@XZg=QoWEgm(0.?gz|XkfPBrW#GIhlv8*_c<?V(qwSDlzT&t<UxwS
 jZ3ue^2NQ6j.I]^fqF$^UOo)%havXNNF.<I)OF]Ac=ruP)ktDsP|+UTHszhhJo,)T1lchptM4SwEsP=EGmVDL](),q|A:7:jcyZ
 #R*Le:Omf|FD*qTPdn[3+J8VI.9a!I*aKq]1NSn:JsI^lz0ak]#RC<SdOHv9$U<Gy_MQW=a<>.iekkrgClMMfI(Q@fCTq=7|TNn
 TjZmw<uQOLt4WqX(fhTeL~%j&gIs*Uar?46AU5Oa64ITFGGI|#[@U#*6A?+|fzkluDsc31OBGYn>SM)5DnX:mz3M:A*Lah_*XYs
 :k&jhD<9|AW<d82kE6(mk4,$RUt@h9aOqzEJWjKham.)Km[oXC!@=rodU,UbaXEQUn9A$yIFP!jEKA@~o[Dt6Ya]#%Onu3|DyMv
 (90taI<x!Do7g??%e7O+p7uX=21y]Em|k;l!_gy*$SZQa*^yR(PL>BGdJA>P],MmQ7kTh8a>VBH(,pOH4t_r1lL8).Vg^+_=4qg
 7eQ:2O,?Hwn?)~ijcB>ti))o@Gd(a:+VHkI+hlF9[O%iGEZX,htiIZ$l]YsCv8%.9X&VRsnM4@,:lfHtAfl2EFT(v]:w@naDJAD
 iH#)ZjA%hbMgLRD.7WN15IpmJ(ysDj5H<XADNo[f:IUGWb>O)>J*<deQa2?v4~R|o;5y!47*Oly^aV7)CIb(T5?=D$M7C?j4IR|
 a1:uXfVU4w~RVnstZ6aN4N[kI+QGjb|@isMZ)7Ui7Af6SzYN2:z?2d4~iKB,R=#wjs_jn>po09)z?&A;4*xo@_gqWo?;cuC^;b4
 .tev+HMY:V05f]x|tE(!^Nd(@cofx0XP#Opv33I),pI|q|wCeXVDdWhmHl5>WT^mmKRp^v74ZoQeg:nY=rS$>pKr^p6.mq8ala]
 _fwO4q@Dw+k(Y,d%:=7;*_>e$3IK0?],zL26k<WgQ4#xm66ldrE[fMSwj&5rkCTiC<Qj)*tTd)=_>n<]JlF?uS#+#k|)m&H$[A_
 _o1BEDMTTPu+z&VR@7rzlhtgD,F)hxSG,zHn9]T<ebq*?xt!4,@,!ryBmufI1pNJ+bOQg8~#WOoD7C|)~6eQppC6=~;Ace_1HG;
 9[TVq<IC6%,A^3EGb2U&7GTzZVWh%&AhI+a~=Dx@0dO8|Odlq2V<:@@>+c*N;L~LpOhV&hv)^K5VH4<e.([d1DAbeZVo;Cz]44,
 jCCfA,|*1V5IZVkIrF#uNBb!PAqjV<ROOLwQ5qeveWeJu79J!fHbB5ISf(XfsmB#]Y9Sx>etr,BE;o9C~M$sY$@~>XjEc8QTz*d
 <X#bh7EoKp1ew$9sghTWt.##m|UyRe49IRP!E|RckJPO;h1_qe%u+zK.!2ue9d8)5yO9fpI$7PG@yG=1uVUu@k$<LzDo8a4pkY#
 FCLg^vDz(c9JZv>tl6;<kpJh!zGSw2bV7Z#1|mST%ahU,$UT*SuS3532G?iV9lgbpjFw$.;=6zV;8jUgAZgv.bp$3f9yNBCbGUE
 rZ&yz|hwyG~t@zI]qv&LmG^aUSA88:6;0#hYS^;o+2E<=W%V:nxObz+2Vs?PKh7V(FL8Vb6E@VOc>*mgg%%IP&xs+dF*X1MK>)v
 &7av$&GBY_vh6C8c^Vs~O5y?<98|>9wXU4~W[8^G%&skfFGHcDrXDFxiy;p3VkAiQm*Z,KXK,%5SwV,iS5WkFb2TAi3&z:r,y;v
 .[&?H&>qpv[.*T*>Y!n?70d:5DVd.5Iu#[Vc#5[#hVJ[ZA~(j*SB&6)yhMZbJ_v6]=@QHlwS9LQlcv9XArDa,v:^uX5bX|H5e@d
 G1)L6^h5upssmqybgqv1S*8)d3Ebvc*@>zA6^+H%biT#:%t[Iay,1g1z0%b1_06RrIcFN|=~^UOGOg6tzw,QXQ~%Jl[Q+=g7*(M
 jl:vg|tN36^)mT0HeM~SLFh7$d.]eg>5|XU3Vt!ez!V1Dz8Zk7zRKat0%DusH^UZzcvZxJC4[E,zF>9[|$&J0vV4Gv$8c.^SPEi
 VR1j6$~*Q#@@8^eq?ZL+2X+X4_9!3P,9G6W$[b&ArU!SzDm2;A)o^Zv)Rd2=8;k^Uk([a3UB+oj&#(@EhTI8A].J^.hP^0wcIL~
 NZsU|tdfQxO9fQR6eWm0VoH<uM#+I8jlVsb)NI(Hz]:D8r3l9hR,:R&7J<a3q!_vDo)6!Ey:X&jvy:^i0SK1xtM3Y5X2NL[;wj~
 cQ9L%DdWPjRl62?%1a7PQ~n(hN&6Xhg>;S!I~$<2VrU[X>VU[ZA&I0MzWYoyi#3o8&Jt$,8J]oF@MUpJO%yP!1[Y@aT>uhu[Vw9
 rGlRK]b%>(SQ_x*|Hn6cu)09KQ+pKr;0WT=1QokDh^p?9&vHWmIfbzlA*!AC]2a*:|)U6Q*LESvyQrB,nw|[#X?kW?U%|Tm%%b8
 d3@^)Z3.X5vwD:X#r:^csT!rejPjF;Q7iY*;]<Ab:a;<daZx#6k1JaXMtED3ieB92zzgCHi#(qI.*3uHJt:$hcT<u4.F6?;VHu@
 |Q$&8|<7$F&wn%H%%L=U$J#2JtZ><*EKqc=mQ2[e$n5VR+~<i$vB+*,lRZ9~nLG=NFF9|MbcLCMV[g#<9^TA8*uxy,4wr0vU1!_
 ^IB5_BczkK+]?]Wu8#]Q+=XkbldbIB.V97!G8?U3U8W(x*hcH;?NXyAr,lhoNCFGVJv>p#xs,nrjSl0EpQ[m4VS@d%ZW)_dno4c
 *w_RW%@PE+WXozP*SdJC?lUZFq$TzO$&Gv8J5Ki8Oz(W;EPD)ifprBJt=6yonE?Ryj,h5MBc<o$,C=28jA?=%D#T^|;R#)oI&^I
 T?;dL(m9VSAcSS6I=GYdq5svmc6$=CeMr^?+TKJsqNHU8bJZhO?jpyY*Y5$_;!zLX7q4H1C8Y2w(xS,T~gZt&go+24$yHUPeX:N
 sd4^pw#^YOc>_s.44K.g~6RKuCtM4cay15RE[Zefn;kZl(<xa|CRyI6[#XX.oPf[4dB)@CsFJ6dBo.+D?I_HSc9TB*Q>#jw6EOe
 eeK0)3pb0B>7v#D>+[;N*Z1SQtl@=8h5~?CZ]2]x6OnW:4O*g7JFRz8_AAo66F+y;Hh[T_1$F0R#e.Z!L1eRyFC;NMTjCUm9F?a
 b7e0^7qSv:KXW$9gPCS_7bAeunmwC94sv^_%UMzsYw%i#(:%;<+hygL@O;uz&z*sCnKX=E;558pdwBBgAnTJ~~iU6+9EsjcFjlX
 VZ<M$!H:KOx*p,RxNLG0e]ND~cd5Ui@]$BLRgIn~L*PP>K56CkVX_IR]JjyJP+aL41Pz$jBF>xuG0!%@aawp|k,s8b+vXxx5foV
 2Wk0r]Y6zqBcwtCT.>PK*W^oPOp47(d]f^uIWdT^9S,b[n3ag~)%iek&S=O@q.6Md87EQ~X7Pu>(;99=j5s9|Mo3QhCUwR0]=kt
 %&y^QQfA9_KEBRW$Sk1VzJ1aVOWJG]D)TjS]*ya^@Ru&SZ$vZ,YNov;Z:_)nLGY05F3[>RGtAwZgbI#qhm:8X_1]Nk;Si9k_[]B
 fJ=?DXp1uIYKiAw;UZtz_umuX0[UmiraWo(fP4*.k8imtB$[|=5npv4#fNDQ4@Lg_*W!QKR)l;[X$QnnsqB:ST),w*x]OCo*;jI
 NU(>1G|R1tfL<W[4%Eb&Lkj6U+1D8l[eU%URn6>%?^.[Xg|WmCz*k_Wn|_:!8WqY#MX+_4Nf~3y[@]<nDC]U)><gy~zo0AGXG),
 KWH.>^uQt~h9w>fl^_;PGCXSG5?Wr(NmO#XO?|qVo,QR;5kHh3jbRGSmucmK=0Z_r,e@63^MbgWvYw;X$CAMWyMGaLzT)8O32^j
 lvsTzA1oARsy=%Qa!Lg~zm55j+pp@rxC)<YjaadoXGgL$FC92A(APJ~M(J%MM_uip@<ukXsgjDi=_aUP.YWaGga0tF=^<N]2F?o
 bDx5^$#HvkEk)aE:ryYi|DaXeTuZ0AJ~L>cFb)|[c^Oq0szS4f*Ll*k&>^~&TH5bge_rMsgt:Z&w2bMJ#ljwq?<L0f9LslhBGd!
 baYRjTnGTR=%Nd(RytrYHQSTjJ|tinU|_GYDbLA<AR[&+~6GzJ$5$@6uaX4z29|12(CB*6mzqVYQI0R~XGiDngm)2_KOX3AHJ)j
 !K<sXfZ&~4_ms*vL|Qty5>$4zS3(njnSQgT7b9HOk.*mrZ6AZ|NwTf#xb2YOrYPU2sJa~MS&i;yO|2b2HO[xn.e|vpry?:@A>tx
 ^TYV8ZjznC|H^qzx*F5zoXwy+~oeEe@684zWBu70(=z:a0Vf<tG^%cUwQ~>P5CJfAV$D3,HCDSt^:+<sCVnYJNKoOj.euTU)iS*
 X1,vIo~p?s,ht6<Ynx7>c]2?:axch5SVM2dy,Ra:ligbf)Bj)F~??JAH3~g<qWXH9nyR%i_m[X86W@ZYP.F*.qH=(QXJJ3.(tBZ
 QSMT~Cvb9cV*iBT<>ogJAARjTiY;~K]ir8S<oA&b_]n0Y7s+xUDOfCWrh,R)y=)%8J9KJame3i4B3=Dr+UDf$oM,(DF;Q#Tg6r3
 fG.WXa?Gcxa6m%trD1s^%R>?u^p3(PJa[)A<Z#@&G=D?f9A=BMsLOzg%dA^r8O$3qz(PyX6v(jwX%X>BO[H+l<_q:POaM[IaJKZ
 kFl]r*mH_$?mKRV<jqft):~Ucn@)I2X,pE?Ja#aedcvVKGwA2:d>H7FgChf=HVo3Rd%,7>t>y<A]w?Js,90vBO2S$n2=YP7Bl@M
 xw7p_)Th.r&<;ZvRVFdNDN6EMq%I>y(JnbsOX(bcFK&_QK#^8NC[)gA0uMX51saR8gm#AXb,^g^IzYD().a@!a0O~<06Z$mdD>q
 dC_VU;3UYks[!*5mr)sNpt10HZ8[mA[!VEfCHmE_1$)OX9WV8._JO=$0M:,]0$RB8hfBrqt;eQo6PF5]~VgarUpR!S)ts76o)O:
 pP~=!9:!k1oe?&Wl!75rf+1jb%;j1NktPjnng#FSVdb;D8momo%hXCoY21BmR6CcOI1GH>*vY]SP*|Q)$lx[|(~v&;rO_?Kb(13
 T8S)WvIvrPK4NZj9Au_)JvaS(g!7^E*~J6QmF6UGK(#$h(wuM5g&ICW)xbw.Zs?jCBt4_vQj>&&m=&|A(U5>d5lK~AimE*$4kDc
 ;qP[%P=O3.<EH5wyt<qk0y^Y3OyBJN:yyVm%s)R7o:1XB6Tm]I47,s:3zf)X>vrs$.,]V#0C147XWiQ>Y_d1v!V=~IWW845vsqU
 SiX(*Euwii...4BaZ~>k$.[kn6nlZRxa129mp_oOqJ6NyGPCMp_cvar)y*y<Blp?#xZ>Ra5b6n$Wti(;NlkyS9Rws%=Nu<TcUdt
 %FmWi>>=q=jjof>yHE+Ln^Jj!|PO#sXo$AVTEQiltj26J=RAn&sBLt8>W)X@$y!]SA(K?%cc@58~.59RBc*k(Fxej]u9)VV6WU0
 lANq_s[l0]r$S6FB;ZS,GGl9qTIGX621$<$GkCrP4Yv|bu%oP<a=mgt;^P*4kr"⟩

end Docsmith.Text
